import RdpProxy.Admin.RequestUrl

/-!
# The origin of a mutating request (`middleware/csrf.py`)

The `Origin` header is compared with `Host` where it has an authority, and not at all where it has none.
Nothing is compared where `Host` keeps the middleware from seeing the path.
-/

namespace RdpProxy.Admin

/-! ## The source -/

def mutatingMethods : List String := ["POST", "PUT", "DELETE", "PATCH"]

inductive Handled where
  | next
  | response (statusCode : Nat) (detail : String)
  /-- `urlsplit` and `urlparse` take no unmatched bracket, and no bracketed host that is none. -/
  | raised
  deriving DecidableEq

def originAuthority (origin : String) : Option (List Char) := Url.authority (withoutUnsafe origin.toList)

/-- `urlparse(origin).netloc`, and none where it raises. -/
def netloc (bracketed : List Char → Bool) (origin : String) : Option (List Char) :=
  (urlsplit bracketed origin.toList).map SplitResult.netloc

def csrfFailed : Handled := .response 403 "CSRF validation failed"

/-- `CsrfMiddleware.dispatch` -/
def dispatch (bracketed : List Char → Bool) (r : ApiRequest) : Handled :=
  if r.method ∉ mutatingMethods then .next
  else
    match r.urlPath bracketed with
    | none => .raised
    | some path =>
      if ¬ "/api/".toList <+: path.toList then .next
      else
        let origin := r.header "origin"
        if origin ≠ "" then
          match netloc bracketed origin with
          | none => .raised
          | some netloc => if netloc ≠ [] ∧ netloc ≠ (r.header "host").toList then csrfFailed else .next
        else if r.header "x-requested-with" ≠ "" then .next
        else if "application/json".toList <:+: (r.header "content-type").toList then .next
        else csrfFailed

/-! ## Which requests may pass -/

/-- Routed to the API. -/
def ApiRequest.Mutates (r : ApiRequest) : Prop := r.method ∈ mutatingMethods ∧ "/api/".toList <+: r.path.toList

/-- The type and subtype of a content type, which ignore case. -/
def mediaType (contentType : String) : List Char :=
  Text.lower (Text.strip (contentType.toList.takeWhile (· ≠ ';')))

/-- The origin is that of the host, or there is none and the request is none that a form can send. -/
def ApiRequest.Allowed (r : ApiRequest) : Prop :=
  if r.header "origin" ≠ "" then originAuthority (r.header "origin") = some (r.header "host").toList
  else r.header "x-requested-with" ≠ "" ∨ mediaType (r.header "content-type") = "application/json".toList

def Guarded (bracketed : List Char → Bool) (r : ApiRequest) : Prop :=
  r.Mutates → dispatch bracketed r = .next → r.Allowed

/-- A request that a form can send has no other content type that mentions `application/json`, and
an origin has an authority, and none that is empty beside a host. -/
def ApiRequest.PlainOrigin (bracketed : List Char → Bool) (r : ApiRequest) : Prop :=
  if r.header "origin" ≠ "" then
    netloc bracketed (r.header "origin") = none ∨
      ∃ authority, originAuthority (r.header "origin") = some authority ∧ (authority = [] → r.header "host" = "")
  else
    r.header "x-requested-with" = "" → "application/json".toList <:+: (r.header "content-type").toList →
      mediaType (r.header "content-type") = "application/json".toList

/-- The middleware sees a path of the API, or the request has no origin and is none that a form can send. -/
def ApiRequest.Plain (bracketed : List Char → Bool) (r : ApiRequest) : Prop :=
  match r.urlPath bracketed with
  | none => True
  | some path =>
    if "/api/".toList <+: path.toList then r.PlainOrigin bracketed
    else r.header "origin" = "" ∧
      (r.header "x-requested-with" ≠ "" ∨ mediaType (r.header "content-type") = "application/json".toList)

variable {bracketed : List Char → Bool} {r : ApiRequest} {path : String}

theorem dispatch_seen (h : r.Mutates) (hurl : r.urlPath bracketed = some path) (hpath : "/api/".toList <+: path.toList) :
    dispatch bracketed r =
      if r.header "origin" ≠ "" then
        match netloc bracketed (r.header "origin") with
        | none => .raised
        | some netloc => if netloc ≠ [] ∧ netloc ≠ (r.header "host").toList then csrfFailed else .next
      else if r.header "x-requested-with" ≠ "" then .next
      else if "application/json".toList <:+: (r.header "content-type").toList then .next
      else csrfFailed := by
  unfold dispatch
  rw [if_neg (by simpa using h.1), hurl]
  dsimp only
  rw [if_neg (by simpa using hpath)]

theorem dispatch_unseen (hurl : r.urlPath bracketed = some path) (hpath : ¬ "/api/".toList <+: path.toList) :
    dispatch bracketed r = .next := by
  unfold dispatch
  rw [hurl]
  dsimp only
  rw [if_pos hpath, ite_self]

theorem dispatch_noOrigin (h : r.Mutates) (hurl : r.urlPath bracketed = some path)
    (hpath : "/api/".toList <+: path.toList) (ho : r.header "origin" = "") : dispatch bracketed r = .next ↔
      r.header "x-requested-with" ≠ "" ∨ "application/json".toList <:+: (r.header "content-type").toList := by
  rw [dispatch_seen h hurl hpath, if_neg (by simpa using ho)]
  split_ifs with hxrw hjson
  · exact iff_of_true rfl (.inl hxrw)
  · exact iff_of_true rfl (.inr hjson)
  · exact iff_of_false (by decide) (by tauto)

theorem netloc_eq_some {origin : String} {name : List Char} (h : netloc bracketed origin = some name) :
    (originAuthority origin).getD [] = name := by
  obtain ⟨parts, hparts, rfl⟩ := Option.map_eq_some_iff.mp h
  unfold urlsplit at hparts
  dsimp only at hparts
  split_ifs at hparts
  cases hparts
  rfl

theorem dispatch_origin_next (h : r.Mutates) (hurl : r.urlPath bracketed = some path)
    (hpath : "/api/".toList <+: path.toList) (ho : r.header "origin" ≠ "") : dispatch bracketed r = .next ↔
      netloc bracketed (r.header "origin") ≠ none ∧
        ((originAuthority (r.header "origin")).getD [] = [] ∨
          (originAuthority (r.header "origin")).getD [] = (r.header "host").toList) := by
  rw [dispatch_seen h hurl hpath, if_pos ho]
  rcases hnetloc : netloc bracketed (r.header "origin") with _ | name
  · exact iff_of_false (by simp) (by simp)
  · rw [netloc_eq_some hnetloc]
    dsimp only
    split_ifs with hforeign
    · exact iff_of_false (by decide) (by tauto)
    · exact iff_of_true rfl ⟨by simp, by tauto⟩

theorem guarded_seen_iff (h : r.Mutates) (hurl : r.urlPath bracketed = some path)
    (hpath : "/api/".toList <+: path.toList) :
    (dispatch bracketed r = .next → r.Allowed) ↔ r.PlainOrigin bracketed := by
  unfold ApiRequest.PlainOrigin ApiRequest.Allowed
  by_cases ho : r.header "origin" ≠ ""
  · rw [dispatch_origin_next h hurl hpath ho, if_pos ho, if_pos ho]
    rcases hauthority : originAuthority (r.header "origin") with _ | authority
    · simp
    · by_cases hempty : authority = []
      · have hhost : some [] = some (r.header "host").toList ↔ r.header "host" = "" := by
          rw [Option.some.injEq, eq_comm, String.toList_eq_nil_iff]
        rw [hempty, hhost]
        constructor
        · intro hall
          by_cases hnetloc : netloc bracketed (r.header "origin") = none
          · exact .inl hnetloc
          · exact .inr ⟨[], rfl, fun _ => hall ⟨hnetloc, .inl rfl⟩⟩
        · rintro (hnone | ⟨authority, hname, hmissing⟩) ⟨hnetloc, -⟩
          · exact absurd hnone hnetloc
          · exact hmissing (Option.some.inj hname).symm
      · simp [hempty]
  · rw [if_neg ho, if_neg ho, dispatch_noOrigin h hurl hpath (by simpa using ho)]
    tauto

/-- A `Host` that hides the path is the authority of no origin. -/
theorem allowed_unseen (h : r.Mutates) (hurl : r.urlPath bracketed = some path)
    (hpath : ¬ "/api/".toList <+: path.toList) (hallowed : r.Allowed) : r.header "origin" = "" := by
  by_contra ho
  unfold ApiRequest.Allowed at hallowed
  rw [if_pos ho] at hallowed
  refine hpath (ApiRequest.urlPath_api (fun host hhost c hc => ?_) h.2 hurl)
  have hheader : r.header "host" = host := by
    unfold ApiRequest.hostHeader at hhost
    unfold HttpRequest.header
    rw [hhost, Option.getD_some]
  exact Url.endsAuthority_of_mem hallowed (hheader ▸ hc)

/-- The middleware lets through what it may exactly for the requests whose path it sees, whose origin
has an authority, and whose content type is `application/json` where it says so anywhere. -/
theorem guarded_iff (bracketed : List Char → Bool) (r : ApiRequest) :
    Guarded bracketed r ↔ (r.Mutates → r.Plain bracketed) := by
  unfold Guarded ApiRequest.Plain
  refine forall_congr' fun hmutates => ?_
  rcases hurl : r.urlPath bracketed with _ | path
  · have hraised : dispatch bracketed r = .raised := by
      unfold dispatch
      rw [if_neg (by simpa using hmutates.1), hurl]
    refine iff_of_true (fun hnext => ?_) trivial
    rw [hraised] at hnext
    cases hnext
  · dsimp only
    by_cases hpath : "/api/".toList <+: path.toList
    · rw [if_pos hpath]
      exact guarded_seen_iff hmutates hurl hpath
    · rw [if_neg hpath, dispatch_unseen hurl hpath]
      unfold ApiRequest.Allowed
      constructor
      · intro h
        have hnone := allowed_unseen hmutates hurl hpath (h rfl)
        exact ⟨hnone, by simpa [hnone] using h rfl⟩
      · rintro ⟨hnone, hother⟩ -
        simpa [hnone] using hother

/-! ## Origins as browsers write them -/

theorem dispatch_page_origin (hmutates : r.Mutates) (hurl : r.urlPath bracketed = some path)
    (hpath : "/api/".toList <+: path.toList) {scheme host : List Char}
    (horigin : (r.header "origin").toList = scheme ++ ':' :: '/' :: '/' :: host) (hscheme : Url.isScheme scheme = true)
    (hhost : ∀ c ∈ host, Url.endsAuthority c = false ∧ c ≠ '[' ∧ c ≠ ']')
    (hsafe : ∀ c ∈ (r.header "origin").toList, 0x20 < c.toNat) (hne : host ≠ []) :
    dispatch bracketed r = .next ↔ (r.header "host").toList = host := by
  have hauthority : originAuthority (r.header "origin") = some host := by
    unfold originAuthority
    rw [withoutUnsafe_eq_self hsafe, horigin]
    have hname := Url.authority_origin hscheme (fun c hc => (hhost c hc).1) (show ∀ c ∈ [].head?, _ by simp)
    rwa [List.append_nil] at hname
  have hnetloc : netloc bracketed (r.header "origin") = some host := by
    have hopen : '[' ∉ host := fun h => (hhost _ h).2.1 rfl
    have hclose : ']' ∉ host := fun h => (hhost _ h).2.2 rfl
    unfold originAuthority at hauthority
    unfold netloc urlsplit
    simp only [hauthority, Option.getD_some]
    simp [isNetloc, hopen, hclose]
  have ho : r.header "origin" ≠ "" := by
    intro h
    rw [h] at horigin
    exact absurd horigin.symm (by simp)
  rw [dispatch_origin_next hmutates hurl hpath ho, hauthority, hnetloc, Option.getD_some]
  simp only [hne, false_or, ne_eq, reduceCtorEq, not_false_eq_true, true_and]
  exact eq_comm

/-! ## A page without an origin of its own -/

instance (r : ApiRequest) : Decidable r.Allowed := by
  unfold ApiRequest.Allowed
  infer_instance

/-- Everything of these requests but the headers. -/
def killAllWith (headers : List (String × String)) : ApiRequest where
  headers := headers
  client := none
  stateIp := none
  method := "POST"
  scheme := .https
  server := none
  path := "/api/admin/sessions/kill-all"
  queryString := ""

/-- Sent from a sandboxed frame, which has the opaque origin `null`. -/
def fromSandbox : ApiRequest :=
  killAllWith [("host", "admin.example"), ("origin", "null"), ("content-type", "text/plain")]

/-- Sent by a client that leaves out the origin, with a type that needs no permission. -/
def mentionsJson : ApiRequest := killAllWith [("host", "admin.example"), ("content-type", "text/plain; x=application/json")]

/-- The path goes into the query. -/
def hidesPath : ApiRequest := killAllWith [("host", "admin.example?"), ("origin", "https://evil.example")]

theorem sandbox_let_through : ¬ Guarded (fun _ => false) fromSandbox ∧ ¬ Guarded (fun _ => false) mentionsJson ∧
    ¬ Guarded (fun _ => false) hidesPath := by
  refine ⟨fun h => ?_, fun h => ?_, fun h => ?_⟩
  · exact absurd (h ⟨by decide, by decide⟩ (by decide)) (by decide)
  · exact absurd (h ⟨by decide, by decide⟩ (by decide)) (by decide)
  · exact absurd (h ⟨by decide, by decide⟩ (by decide)) (by decide)

end RdpProxy.Admin
