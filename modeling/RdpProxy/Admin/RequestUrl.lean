import RdpProxy.Admin.ForwardedFor
import RdpProxy.Lib.Url

/-!
# The path that a middleware sees (`request.url.path`)

Routes are chosen by the path of the scope. `request.url` is put together from the `Host` header and
that path and split again, so a `Host` with a `/`, `?` or `#` in it, or a path with a `?` or `#`, changes
what the middleware sees.
-/

namespace RdpProxy.Admin

/-! ## `urlsplit` -/

/-- Taken out anywhere in a reference. -/
def isUnsafe (c : Char) : Bool := c = '\t' || c = '\r' || c = '\n'

/-- What `urlsplit` removes before it looks at a reference. -/
def withoutUnsafe (s : List Char) : List Char := (s.dropWhile fun c => c.toNat ≤ 0x20).filter fun c => !isUnsafe c

structure SplitResult where
  netloc : List Char
  path : List Char
  deriving DecidableEq

/-- A bracket stands in an authority only around an address. `bracketed` says which of the hosts in
brackets are addresses. -/
def isNetloc (bracketed : List Char → Bool) (netloc : List Char) : Bool :=
  if '[' ∈ netloc ∨ ']' ∈ netloc then '[' ∈ netloc ∧ ']' ∈ netloc ∧ bracketed netloc else true

/-- `urlsplit(url)`, and none where it raises. -/
def urlsplit (bracketed : List Char → Bool) (url : List Char) : Option SplitResult :=
  let url := withoutUnsafe url
  let netloc := (Url.authority url).getD []
  if isNetloc bracketed netloc then some ⟨netloc, Url.path url⟩ else none

/-! ## The request -/

inductive Scheme where
  | http
  | https

def Scheme.text : Scheme → String
  | http => "http"
  | https => "https"

def Scheme.defaultPort : Scheme → Nat
  | http => 80
  | https => 443

/-- The address of the socket that took the request. -/
structure ServerAddress where
  host : String
  port : Nat
  plain : ∀ c ∈ host.toList, Url.endsAuthority c = false

structure ApiRequest extends HttpRequest where
  method : String
  scheme : Scheme
  server : Option ServerAddress
  /-- `scope["path"]`, decoded, by which the route is chosen. -/
  path : String
  queryString : String

namespace ApiRequest

variable (r : ApiRequest)

def hostHeader : Option String := (r.headers.find? fun e => e.1 = "host").map Prod.snd

/-- What stands between the scheme and the path. -/
def urlHost : Option String :=
  match r.hostHeader with
  | some host => some host
  | none =>
    r.server.map fun server =>
      if server.port = r.scheme.defaultPort then server.host
      else server.host ++ ":" ++ String.ofList (Text.decimal server.port)

/-- `str(request.url)` -/
def url : String :=
  let url :=
    match r.urlHost with
    | some host => r.scheme.text ++ "://" ++ host ++ r.path
    | none => r.path
  if r.queryString ≠ "" then url ++ "?" ++ r.queryString else url

/-- `request.url.path`, and none where it raises. -/
def urlPath (bracketed : List Char → Bool) : Option String :=
  (urlsplit bracketed r.url.toList).map fun parts => String.ofList parts.path

/-- No `Host` header, or one that is all authority. -/
def PlainHost : Prop := ∀ host ∈ r.hostHeader, ∀ c ∈ host.toList, Url.endsAuthority c = false

instance : Decidable r.PlainHost := by
  unfold PlainHost
  rcases r.hostHeader with _ | host
  · exact .isTrue fun _ h => by cases h
  · exact decidable_of_iff (host.toList.all fun c => !Url.endsAuthority c) (by simp)

end ApiRequest

/-! ## A host that is all authority -/

/-- Without tabs and line ends. -/
def cleaned (s : List Char) : List Char := s.filter fun c => !isUnsafe c

theorem withoutUnsafe_cons {c : Char} (h : 0x20 < c.toNat) (s : List Char) : withoutUnsafe (c :: s) = cleaned (c :: s) := by
  unfold withoutUnsafe cleaned
  rw [List.dropWhile_cons_of_neg]
  simpa using h

theorem cleaned_append (s s' : List Char) : cleaned (s ++ s') = cleaned s ++ cleaned s' := List.filter_append ..

theorem cleaned_eq_self {s : List Char} : cleaned s = s ↔ ∀ c ∈ s, isUnsafe c = false := by
  unfold cleaned
  rw [List.filter_eq_self]
  simp

theorem isUnsafe_false {c : Char} (h : 0x20 < c.toNat) : isUnsafe c = false := by
  unfold isUnsafe
  simp only [Bool.or_eq_false_iff, decide_eq_false_iff_not]
  refine ⟨⟨?_, ?_⟩, ?_⟩ <;> rintro rfl <;> revert h <;> decide

theorem withoutUnsafe_eq_self {s : List Char} (h : ∀ c ∈ s, 0x20 < c.toNat) : withoutUnsafe s = s := by
  rcases s with _ | ⟨c, s⟩
  · rfl
  · rw [withoutUnsafe_cons (h c (by simp))]
    exact cleaned_eq_self.mpr fun c hc => isUnsafe_false (h c hc)

namespace ApiRequest

variable {bracketed : List Char → Bool} {r : ApiRequest}

/-- The path and the query. -/
def tail (r : ApiRequest) : List Char :=
  r.path.toList ++ if r.queryString ≠ "" then '?' :: r.queryString.toList else []

theorem url_of_host {host : String} (h : r.urlHost = some host) :
    r.url.toList = r.scheme.text.toList ++ ':' :: '/' :: '/' :: (host.toList ++ r.tail) := by
  unfold url tail
  rw [h]
  split_ifs <;> simp

theorem url_of_none (h : r.urlHost = none) : r.url.toList = r.tail := by
  unfold url tail
  rw [h]
  split_ifs <;> simp

theorem urlHost_plain (hplain : r.PlainHost) {host : String} (h : r.urlHost = some host) :
    ∀ c ∈ host.toList, Url.endsAuthority c = false := by
  unfold urlHost at h
  rcases hheader : r.hostHeader with _ | header
  · rw [hheader] at h
    obtain ⟨server, -, rfl⟩ := Option.map_eq_some_iff.mp h
    split_ifs
    · exact server.plain
    · intro c hc
      rw [String.toList_append, String.toList_append, String.toList_ofList] at hc
      rcases List.mem_append.mp hc with hc | hc
      · rcases List.mem_append.mp hc with hc | hc
        · exact server.plain c hc
        · obtain rfl : c = ':' := by simpa using hc
          decide
      · rw [String.toList_ofList] at hc
        have hdigit := Text.isDigit_of_mem_decimal hc
        unfold Url.endsAuthority
        simp only [Bool.or_eq_false_iff, decide_eq_false_iff_not]
        refine ⟨⟨?_, ?_⟩, ?_⟩ <;> rintro rfl <;> revert hdigit <;> decide
  · rw [hheader] at h
    cases h
    exact hplain host hheader

/-- The authority that `request.url` reads, tabs and line ends included. -/
def authorityText (r : ApiRequest) : List Char := (r.urlHost.map String.toList).getD []

theorem cleaned_tail (r : ApiRequest) : cleaned r.tail =
    cleaned r.path.toList ++ cleaned (if r.queryString ≠ "" then '?' :: r.queryString.toList else []) :=
  cleaned_append ..

theorem takeWhile_tail (r : ApiRequest) : (cleaned r.tail).takeWhile (fun c => !Url.endsPath c) =
    (cleaned r.path.toList).takeWhile fun c => !Url.endsPath c := by
  rw [cleaned_tail]
  split_ifs
  · have hquery : cleaned ('?' :: r.queryString.toList) = '?' :: cleaned r.queryString.toList := rfl
    rw [hquery, List.takeWhile_append]
    split_ifs with hall
    · rw [List.takeWhile_cons_of_neg (by decide), List.append_nil]
      exact ((List.takeWhile_prefix _).eq_of_length hall).symm
    · rfl
  · rw [show cleaned [] = [] from rfl, List.append_nil]

theorem cleaned_api {s : List Char} (h : "/api/".toList <+: s) : "/api/".toList <+: cleaned s := by
  obtain ⟨rest, rfl⟩ := h
  rw [cleaned_append]
  exact List.prefix_append ..

theorem scheme_plain (scheme : Scheme) : Url.isScheme scheme.text.toList = true ∧
    ∃ s, scheme.text.toList = 'h' :: s ∧ cleaned ('h' :: s) = 'h' :: s := by
  cases scheme <;> exact ⟨by decide, _, rfl, by decide⟩

theorem url_parts (hplain : r.PlainHost) (hpath : "/api/".toList <+: r.path.toList) :
    Url.authority (withoutUnsafe r.url.toList) = r.urlHost.map (fun host => cleaned host.toList) ∧
      Url.path (withoutUnsafe r.url.toList) = (cleaned r.tail).takeWhile fun c => !Url.endsPath c := by
  obtain ⟨rest, hrest⟩ : "/api/".toList <+: cleaned r.tail := by
    rw [cleaned_tail]
    exact (cleaned_api hpath).trans (List.prefix_append ..)
  rcases hhost : r.urlHost with _ | host
  · have htail : r.tail = '/' :: r.tail.tail := by
      obtain ⟨more, hmore⟩ := hpath
      unfold tail
      rw [← hmore]
      rfl
    rw [url_of_none hhost, htail, withoutUnsafe_cons (by decide), ← htail, ← hrest]
    refine Url.path_relative (fun c hc => ?_) fun h => ?_
    · obtain rfl : '/' = c := by simpa using hc
      decide
    · simp at h
  · obtain ⟨hname, s, hs, hsame⟩ := scheme_plain r.scheme
    have hclean : withoutUnsafe r.url.toList =
        r.scheme.text.toList ++ ':' :: '/' :: '/' :: (cleaned host.toList ++ cleaned r.tail) := by
      rw [url_of_host hhost, hs, List.cons_append, withoutUnsafe_cons (by decide), ← List.cons_append, cleaned_append,
        hsame, ← cleaned_append]
      rfl
    have hplain' : ∀ c ∈ cleaned host.toList, Url.endsAuthority c = false :=
      fun c hc => urlHost_plain hplain hhost c (List.mem_of_mem_filter hc)
    have hslash : ∀ c ∈ (cleaned r.tail).head?, Url.endsAuthority c = true := by
      rw [← hrest]
      intro c hc
      obtain rfl : '/' = c := by simpa using hc
      decide
    rw [hclean]
    exact ⟨Url.authority_origin hname hplain' hslash, Url.path_origin hname hplain' hslash⟩

theorem urlPath_eq (bracketed : List Char → Bool) (hplain : r.PlainHost) (hpath : "/api/".toList <+: r.path.toList) :
    r.urlPath bracketed =
      if isNetloc bracketed (cleaned r.authorityText) then
        some (String.ofList ((cleaned r.path.toList).takeWhile fun c => !Url.endsPath c))
      else none := by
  obtain ⟨hauthority, hpart⟩ := url_parts hplain hpath
  have htext : (r.urlHost.map fun host => cleaned host.toList).getD [] = cleaned r.authorityText := by
    unfold authorityText
    cases r.urlHost <;> rfl
  unfold urlPath urlsplit
  simp only [hauthority, hpart, htext, takeWhile_tail]
  split_ifs <;> rfl

theorem urlPath_api (hplain : r.PlainHost) (hpath : "/api/".toList <+: r.path.toList) {path : String}
    (h : r.urlPath bracketed = some path) : "/api/".toList <+: path.toList := by
  rw [urlPath_eq bracketed hplain hpath] at h
  split_ifs at h
  obtain ⟨rest, hrest⟩ := cleaned_api hpath
  have happi : "/api/".toList.all (fun c => !Url.endsPath c) = true := by decide
  have hbefore : path.toList = "/api/".toList ++ rest.takeWhile fun c => !Url.endsPath c := by
    rw [← Option.some.inj h, String.toList_ofList, ← hrest, List.takeWhile_append_of_pos (List.all_eq_true.mp happi)]
  rw [hbefore]
  exact List.prefix_append ..

end ApiRequest

end RdpProxy.Admin
