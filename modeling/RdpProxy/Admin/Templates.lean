import RdpProxy.Admin.AdminUsers
import RdpProxy.Lib.SingleMark
import RdpProxy.Rdp.RdpFile

/-!
# Requests for the templates, side by side

`routes/templates.py` keeps one default template: a request that makes a template the default
takes the mark from every other one first. No constraint of the table says so.
-/

open Steps TableTxn
open UnitOfWork (Verdict)

namespace RdpProxy.Admin

open Rdp (Params defaultRdpParams)

/-! ## The source -/

/-- A row of `rdp_templates`. The bindings of a template are rows of another table. -/
structure TemplateRow where
  name : List Char
  isDefault : Bool
  priority : Nat
  params : Params
  deriving DecidableEq

def TemplateRow.clash (t u : TemplateRow) : Bool := t.name = u.name

structure TemplateCreate where
  name : List Char
  isDefault : Bool
  priority : Nat
  params : Params
  groups : List (List Char)

structure TemplateUpdate where
  name : Option (List Char)
  isDefault : Option Bool
  priority : Option Nat
  params : Option Params
  groups : Option (List (List Char))

/-- The template that the answer shows, and none for a 204. -/
abbrev TemplateReply := Except HttpError (Option (Uuid × TemplateRow))

abbrev TemplateWork := TableTxn.Work Uuid TemplateRow TemplateReply

namespace Templates

def groupUuids : List (List Char) → Except HttpError (List Uuid)
  | [] => .ok []
  | g :: groups =>
    match Uuid.parse g with
    | none => .error ⟨400, "Invalid group GUID: " ++ String.ofList g⟩
    | some u => (groupUuids groups).map (u :: ·)

/-- `session.close()` before any commit. -/
def closed (reply : TemplateReply) : TemplateWork := .rollback (.reply reply)

def cleared (t : TemplateRow) : TemplateRow := { t with isDefault := false }

/-- `sa.update(RdpTemplate).values(is_default=False)`, where the template is to be the default. -/
def clearing (isDefault : Bool) (next : TemplateWork) : TemplateWork :=
  if isDefault then .updateAll cleared next else next

/-- What the commit goes on with after a statement of its flush. An UPDATE that meets no row is
a `StaleDataError`, which no route catches. -/
def flushed (conflict : HttpError) (next : TemplateWork) : Verdict → TemplateWork
  | .done => next
  | .missed => closed (.error ⟨500, "Internal Server Error"⟩)
  | .refused => closed (.error conflict)

/-- The statements on the bindings, where the request has any. -/
def bindings (any : Bool) (conflict : HttpError) (next : TemplateWork) : TemplateWork :=
  if any then .elsewhere (flushed conflict next) else next

/-- The COMMIT, `session.refresh(t)` with the names of the groups, and the answer. -/
def committed (tid : Uuid) (t : TemplateRow) : TemplateWork := .commit (.elsewhere fun _ => .reply (.ok (some (tid, t))))

def createWork (tid : Uuid) (body : TemplateCreate) : TemplateWork :=
  clearing body.isDefault <|
    match groupUuids body.groups with
    | .error e => closed (.error e)
    | .ok guids =>
      let t : TemplateRow :=
        ⟨Text.strip body.name, body.isDefault, body.priority, defaultRdpParams.merge body.params⟩
      let conflict : HttpError :=
        ⟨409, "Шаблон с именем '" ++ String.ofList (Text.strip body.name) ++ "' уже существует"⟩
      .write (.insert tid t) (flushed conflict (bindings (guids ≠ []) conflict (committed tid t)))

/-- The columns that the flush writes: those whose value is not the one in memory. -/
structure Columns where
  name : Option (List Char)
  isDefault : Option Bool
  priority : Option Nat
  params : Option Params
  deriving DecidableEq

def Columns.none : Columns := ⟨Option.none, Option.none, Option.none, Option.none⟩

def Columns.write (c : Columns) (t : TemplateRow) : TemplateRow :=
  ⟨c.name.getD t.name, c.isDefault.getD t.isDefault, c.priority.getD t.priority, c.params.getD t.params⟩

/-- The assignments of `update_template`. The UPDATE of all rows has changed `t` in memory, too. -/
def assigned (body : TemplateUpdate) (t : TemplateRow) : Columns where
  name := changed t.name (body.name.map Text.strip)
  isDefault := changed (if body.isDefault = some true then false else t.isDefault) body.isDefault
  priority := changed t.priority body.priority
  params := changed t.params (body.params.map defaultRdpParams.merge)

def updateWork (templateId : List Char) (body : TemplateUpdate) : TemplateWork :=
  match Uuid.parse templateId with
  | none => .reply (.error ⟨400, "Invalid template id"⟩)
  | some tid => .select fun rows =>
    match rows tid with
    | none => closed (.error ⟨404, "Template not found"⟩)
    | some t =>
      clearing (body.isDefault = some true) <|
        match groupUuids (body.groups.getD []) with
        | .error e => closed (.error e)
        | .ok _ =>
          let columns := assigned body t
          let conflict : HttpError := ⟨409, "Шаблон с таким именем уже существует"⟩
          let rest := bindings body.groups.isSome conflict (committed tid (columns.write t))
          if columns = Columns.none then rest else .write (.update tid columns.write) (flushed conflict rest)

def deleteWork (templateId : List Char) : TemplateWork :=
  match Uuid.parse templateId with
  | none => .reply (.error ⟨400, "Invalid template id"⟩)
  | some tid => .select fun rows =>
    match rows tid with
    | none => closed (.error ⟨404, "Template not found"⟩)
    | some t =>
      if t.isDefault then closed (.error ⟨400, "Default template cannot be deleted"⟩)
      else .elsewhere fun _ => .write (.delete tid) fun _ => .commit (.reply (.ok none))

end Templates

inductive TemplatesRequest where
  | create (tid : Uuid) (body : TemplateCreate)
  | update (templateId : List Char) (body : TemplateUpdate)
  | delete (templateId : List Char)

def TemplatesRequest.work : TemplatesRequest → TemplateWork
  | .create tid body => Templates.createWork tid body
  | .update templateId body => Templates.updateWork templateId body
  | .delete templateId => Templates.deleteWork templateId

/-! ## One default -/

def OneDefault (t : Uuid → Option TemplateRow) : Prop := AtMostOne TemplateRow.isDefault t

namespace Templates

variable {swept wrote : Bool}

def MarksOne (swept wrote : Bool) (work : TemplateWork) : Prop := work.MarksOne TemplateRow.isDefault swept wrote

theorem closed_marksOne (reply : TemplateReply) : MarksOne swept wrote (closed reply) := trivial

theorem committed_marksOne (tid : Uuid) (t : TemplateRow) : MarksOne swept wrote (committed tid t) := fun _ => trivial

theorem flushed_marksOne {conflict : HttpError} {next : TemplateWork} (h : MarksOne swept wrote next) (v : Verdict) :
    MarksOne swept wrote (flushed conflict next v) := by
  cases v with
  | done => exact h
  | missed => exact closed_marksOne _
  | refused => exact closed_marksOne _

theorem bindings_marksOne {conflict : HttpError} {next : TemplateWork} (h : MarksOne swept wrote next) (any : Bool) :
    MarksOne swept wrote (bindings any conflict next) := by
  unfold bindings
  split_ifs
  · exact flushed_marksOne h
  · exact h

theorem clearing_marksOne {next : TemplateWork} {isDefault : Bool} (h : MarksOne isDefault false next) :
    MarksOne false false (clearing isDefault next) := by
  unfold clearing
  cases isDefault with
  | true => exact ⟨rfl, fun _ => rfl, h⟩
  | false => exact h

theorem write_marksOne {w : TableTxn.Write Uuid TemplateRow} {conflict : HttpError} {next : TemplateWork}
    (hadds : swept = true ∨ w.AddsNoMark TemplateRow.isDefault) (h : MarksOne swept true next) :
    MarksOne swept false (TableTxn.Work.write w (flushed conflict next)) := by
  refine ⟨rfl, hadds, h, fun v hv => ?_⟩
  cases v with
  | done => exact absurd rfl hv
  | missed => exact closed_marksOne _
  | refused => exact closed_marksOne _

theorem createWork_marksOne (tid : Uuid) (body : TemplateCreate) : MarksOne false false (createWork tid body) := by
  unfold createWork
  apply clearing_marksOne
  split
  · exact closed_marksOne _
  · refine write_marksOne ?_ (bindings_marksOne (committed_marksOne tid _) _)
    cases body.isDefault with
    | true => exact .inl rfl
    | false => exact .inr rfl

theorem assigned_addsNoMark {body : TemplateUpdate} (tid : Uuid) (t : TemplateRow) (h : body.isDefault ≠ some true) :
    (TableTxn.Write.update tid (assigned body t).write).AddsNoMark TemplateRow.isDefault := by
  intro u hu
  have hcolumn : (assigned body t).isDefault ≠ some true := by
    unfold assigned changed
    rw [ne_eq, Option.filter_eq_some_iff]
    exact fun hset => h hset.1
  unfold Columns.write at hu
  simp only at hu
  rcases hc : (assigned body t).isDefault with _ | b
  · rw [hc] at hu
    exact hu
  · rw [hc] at hu
    rw [hc, show b = true from hu] at hcolumn
    exact absurd rfl hcolumn

theorem updateWork_marksOne (templateId : List Char) (body : TemplateUpdate) :
    MarksOne false false (updateWork templateId body) := by
  unfold updateWork
  split
  · trivial
  · rename_i tid _
    intro rows
    simp only
    split
    · exact closed_marksOne _
    · rename_i t _
      apply clearing_marksOne
      split
      · exact closed_marksOne _
      · split_ifs
        · exact bindings_marksOne (committed_marksOne _ _) _
        · refine write_marksOne ?_ (bindings_marksOne (committed_marksOne _ _) _)
          by_cases hdefault : body.isDefault = some true
          · exact .inl (by simp [hdefault])
          · exact .inr (assigned_addsNoMark tid t hdefault)

theorem deleteWork_marksOne (templateId : List Char) : MarksOne false false (deleteWork templateId) := by
  unfold deleteWork
  split
  · trivial
  · intro rows
    simp only
    split
    · exact closed_marksOne _
    · split_ifs
      · exact closed_marksOne _
      · exact fun _ => ⟨rfl, .inr trivial, trivial, fun _ _ => trivial⟩

theorem work_marksOne (request : TemplatesRequest) : MarksOne false false request.work := by
  cases request with
  | create tid body => exact createWork_marksOne tid body
  | update templateId body => exact updateWork_marksOne templateId body
  | delete templateId => exact deleteWork_marksOne templateId

end Templates

/-! ## Requests at the same time -/

section

variable {ι : Type} [DecidableEq ι]

/-- No more than one default all through a run where no request that leaves a template the default
commits beside one that another has added since its UPDATE of all rows began. -/
theorem one_default (requests : ι → TemplatesRequest) (t : Dict Uuid TemplateRow)
    (acts : List (TableTxn.Act ι TemplateReply)) (ht : OneDefault t.get?)
    (hall : Along (logged (Db.step TemplateRow.clash) noteFresh) (MarksSeen TemplateRow.isDefault)
      (Db.initial t fun i => (requests i).work, fun _ => none) acts) :
    Throughout (Db.step TemplateRow.clash) (fun s => OneDefault s.committed.get?)
      (Db.initial t fun i => (requests i).work) acts :=
  throughout_atMostOne (fun i => Templates.work_marksOne (requests i)) ht hall

end

/-! ## Two new defaults -/

def sampleId (d : Nat) (h : d < 16 := by decide) : Uuid := ⟨List.replicate 32 ⟨d, h⟩, rfl⟩

def oldDefault : Dict Uuid TemplateRow := Dict.ofList [(sampleId 0, ⟨"old".toList, true, 0, Dict.empty⟩)]

theorem oldDefault_one : OneDefault oldDefault.get? := by
  intro k k' u u' hk hk' _ _
  have hmem := Dict.get?_eq_some.mp hk
  have hmem' := Dict.get?_eq_some.mp hk'
  have hentries : oldDefault.entries = [(sampleId 0, ⟨"old".toList, true, 0, Dict.empty⟩)] := rfl
  rw [hentries, List.mem_singleton] at hmem hmem'
  rw [(Prod.mk.inj hmem).1, (Prod.mk.inj hmem').1]

def newDefaults (b : Bool) : TemplatesRequest :=
  if b then .create (sampleId 1) ⟨"one".toList, true, 0, Dict.empty, []⟩
  else .create (sampleId 2) ⟨"two".toList, true, 0, Dict.empty, []⟩

/-- The second UPDATE begins before the first request commits. -/
def bothClear : List (TableTxn.Act Bool TemplateReply) :=
  [.go true, .go true, .go true, .go false, .go true, .go true, .go false, .go false, .go false, .go false]

theorem two_defaults :
    OneDefault oldDefault.get? ∧
    ∃ s, run (Db.step TemplateRow.clash) (Db.initial oldDefault fun b => (newDefaults b).work) bothClear = some s ∧
      ¬ OneDefault s.committed.get? := by
  refine ⟨oldDefault_one, _, rfl, ?_⟩
  intro h
  have hsame : sampleId 1 = sampleId 2 := h (sampleId 1) (sampleId 2) _ _ rfl rfl rfl rfl
  exact absurd hsame (by decide)

/-- One after the other: the second UPDATE finds the template of the first request. -/
def turns : List (TableTxn.Act Bool TemplateReply) :=
  [.go true, .go true, .go true, .go true, .go true, .go false, .go false, .go false, .go false, .go false, .go false]

theorem one_default_in_turn :
    ∃ s, run (Db.step TemplateRow.clash) (Db.initial oldDefault fun b => (newDefaults b).work) turns = some s ∧
      (s.committed.get? (sampleId 2)).isSome ∧
      Throughout (Db.step TemplateRow.clash) (fun s => OneDefault s.committed.get?)
        (Db.initial oldDefault fun b => (newDefaults b).work) turns := by
  refine ⟨_, rfl, rfl, ?_⟩
  exact one_default newDefaults oldDefault turns oldDefault_one (by decide +kernel)

end RdpProxy.Admin
