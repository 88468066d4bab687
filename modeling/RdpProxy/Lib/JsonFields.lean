import RdpProxy.Lib.JsonText

/-!
# The fields of a JSON object

Texts, integers and lists of texts under a key, as they are written and read.
-/

namespace JsonText

/-! ## Reading -/

def strAt (d : Doc) (k : String) : Option String :=
  match d.get? k.toList with
  | some (.str s) => some (String.ofList s)
  | _ => none

def intAt (d : Doc) (k : String) : Option Int :=
  match d.get? k.toList with
  | some (.int n) => some n
  | _ => none

/-- `payload.get(k)` of a text that may be missing. -/
def optStrAt (d : Doc) (k : String) : Option (Option String) :=
  match d.get? k.toList with
  | none => some none
  | some .null => some none
  | some (.str s) => some (some (String.ofList s))
  | _ => none

def optIntAt (d : Doc) (k : String) : Option (Option Int) :=
  match d.get? k.toList with
  | none => some none
  | some (.int n) => some (some n)
  | _ => none

def strOf : Doc → Option String
  | .str s => some (String.ofList s)
  | _ => none

/-- `[str(v) for v in payload.get(k, [])]` -/
def strsAt (d : Doc) (k : String) : Option (List String) :=
  match d.get? k.toList with
  | none => some []
  | some (.list items) => items.mapM strOf
  | _ => none

/-! ## Writing -/

def strDoc (s : String) : Doc := .str s.toList

def optStrDoc : Option String → Doc
  | none => .null
  | some s => strDoc s

/-! ## What is written is read back -/

theorem optStr_optStrDoc (s : Option String) (d : Doc) (k : String) (h : d.get? k.toList = some (optStrDoc s)) :
    optStrAt d k = some s := by
  unfold optStrAt
  rw [h]
  cases s with
  | none => rfl
  | some s => simp [optStrDoc, strDoc]

theorem strAt_strDoc {d : Doc} {k s : String} (h : d.get? k.toList = some (strDoc s)) : strAt d k = some s := by
  unfold strAt
  rw [h]
  simp [strDoc]

theorem mapM_map_of_left_inverse {α : Type} {write : α → Doc} {read : Doc → Option α}
    (h : ∀ a, read (write a) = some a) (l : List α) : (l.map write).mapM read = some l := by
  induction l with
  | nil => rfl
  | cons a l ih =>
    rw [List.map_cons, List.mapM_cons, h, ih]
    rfl

theorem strOf_strDoc (s : String) : strOf (strDoc s) = some s := by simp [strOf, strDoc]

theorem strsAt_strDocs {d : Doc} {k : String} {l : List String} (h : d.get? k.toList = some (.list (l.map strDoc))) :
    strsAt d k = some l := by
  unfold strsAt
  rw [h]
  exact mapM_map_of_left_inverse strOf_strDoc l

theorem get?_append_of_ne {k k' : List Char} (h : k' ≠ k) (entries : List (List Char × Doc)) (v : Doc) :
    Doc.get? k (.dict (entries ++ [(k', v)])) = Doc.get? k (.dict entries) := by
  simp [Doc.get?, h]

theorem dumps_ne_nil (ensureAscii : Bool) (v : Doc) : dumps ensureAscii v ≠ [] :=
  List.ne_nil_of_length_pos (dumps_length_pos ensureAscii v)

end JsonText
