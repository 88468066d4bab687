import RdpProxy.Lib.IpAddress
import RdpProxy.Lib.ReadThrough

/-!
# The addresses of the targets (`common/dns_resolver.py`)

Any number of calls of `resolve` are in progress on one resolver. A call gives way to the others while it waits for the
lock and for the answer.
-/

open ReadThrough Steps Text Words

namespace RdpProxy.Relay

inductive ResolveError where
  | valueError (message : String)
  /-- The exception of the query. -/
  | raised

/-- `(host or "").strip()` -/
def hostName (host : Option (List Char)) : List Char := strip (host.getD [])

def isIp (value : List Char) : Bool := (IpAddress.ipAddress value).isSome

/-- How far a call comes on its own. -/
inductive Course where
  | refused
  | literal
  /-- It is the n-th one that comes to the cache. -/
  | waits (n : Nat)

structure ResolveCall where
  host : Option (List Char)
  now : Int
  course : Course

def ResolveCall.name (call : ResolveCall) : List Char := hostName call.host

structure DnsResolver where
  records : ReadThrough.State (List Char) (List Char)
  calls : List ResolveCall

inductive ResolveAct where
  | resolve (host : Option (List Char)) (now : Int)
  | look (n : Nat)
  | answers (n : Nat) (ips : List (List Char))
  | store (n : Nat)
  | fail (n : Nat)

namespace DnsResolver

def new : DnsResolver := ⟨initial, []⟩

/-- What the cache sees of it. `answers[0]` of an empty list is an `IndexError`. -/
def acts : ResolveAct → List (ReadThrough.Act (List Char) (List Char))
  | .resolve host now => if hostName host = [] ∨ isIp (hostName host) = true then [] else [.start (hostName host) now]
  | .look n => [.look n]
  | .answers n (ip :: _) => [.answer n ip]
  | .answers n [] => [.fail n]
  | .store n => [.store n]
  | .fail n => [.fail n]

def course (s : DnsResolver) (host : Option (List Char)) : Course :=
  if hostName host = [] then .refused
  else if isIp (hostName host) then .literal
  else .waits s.records.calls.length

def begun (s : DnsResolver) : ResolveAct → List ResolveCall
  | .resolve host now => [⟨host, now, s.course host⟩]
  | _ => []

def step (cacheTtl : Int) (s : DnsResolver) (a : ResolveAct) : Option DnsResolver :=
  (run (ReadThrough.step cacheTtl) s.records (acts a)).map fun records => ⟨records, s.calls ++ s.begun a⟩

/-- What the call has come to, if it is over. -/
def outcome (s : DnsResolver) (call : ResolveCall) : Option (Except ResolveError (List Char)) :=
  match call.course with
  | .refused => some (.error (.valueError "host is required"))
  | .literal => some (.ok call.name)
  | .waits n =>
    match s.records.calls[n]?.map Call.phase with
    | some (.returned ip) => some (.ok ip)
    | some .failed => some (.error .raised)
    | _ => none

/-! ## The calls and the cache -/

variable {ttl : Int} {s s' : DnsResolver} {a : ResolveAct} {as : List ResolveAct}

theorem step_eq_some : step ttl s a = some s' ↔
    ∃ records, run (ReadThrough.step ttl) s.records (acts a) = some records ∧ s' = ⟨records, s.calls ++ s.begun a⟩ := by
  simp [step, eq_comm]

theorem run_records (h : run (step ttl) new as = some s) :
    run (ReadThrough.step ttl) initial (as.flatMap acts) = some s.records := by
  refine run_history (I := fun as s => run (ReadThrough.step ttl) initial (as.flatMap acts) = some s.records) rfl ?_ h
  intro as s a s' _ hs hstep
  obtain ⟨records, hrun, rfl⟩ := step_eq_some.mp hstep
  rw [List.flatMap_append]
  exact run_append_eq_some.mpr ⟨s.records, hs, by simpa using hrun⟩

def requests (s : DnsResolver) : List (List Char × Int) := s.records.calls.map Call.request

/-- The name decides how far the call comes, and its place on the cache is under that name. -/
def ResolveCall.Booked (requests : List (List Char × Int)) (call : ResolveCall) : Prop :=
  match call.course with
  | .refused => call.name = []
  | .literal => isIp call.name = true
  | .waits n => requests[n]? = some (call.name, call.now)

/-- Every place on the cache belongs to a call. -/
structure Booked (s : DnsResolver) : Prop where
  call : ∀ call ∈ s.calls, ResolveCall.Booked s.requests call
  waits : ∀ n < s.requests.length, ∃ (i : Nat) (call : ResolveCall), s.calls[i]? = some call ∧ call.course = .waits n

/-- What the step asks of the cache. -/
def asked : ResolveAct → List (List Char × Int)
  | .resolve host now => if hostName host = [] ∨ isIp (hostName host) = true then [] else [(hostName host, now)]
  | _ => []

theorem requests_step (h : step ttl s a = some s') :
    s'.requests = s.requests ++ asked a ∧ s'.calls = s.calls ++ s.begun a := by
  obtain ⟨records, hrun, rfl⟩ := step_eq_some.mp h
  refine ⟨?_, rfl⟩
  have hone : ∀ b, acts a = [b] → (∀ key now, b ≠ .start key now) → records.calls.map Call.request = s.requests ++ [] := by
    intro b hb hstart
    rw [hb] at hrun
    obtain ⟨records', hstep, hnil⟩ := run_cons_eq_some.mp hrun
    cases hnil
    rw [List.append_nil]
    exact step_requests hstep hstart
  cases a with
  | resolve host now =>
    simp only [acts, asked] at hrun ⊢
    split_ifs at hrun ⊢
    · cases hrun
      exact (List.append_nil _).symm
    · cases hrun
      simp [requests, Call.request]
  | answers n ips =>
    cases ips with
    | nil => exact hone _ rfl (by simp)
    | cons ip rest => exact hone _ rfl (by simp)
  | look n => exact hone _ rfl (by simp)
  | store n => exact hone _ rfl (by simp)
  | fail n => exact hone _ rfl (by simp)

theorem booked_append {requests more : List (List Char × Int)} {call : ResolveCall}
    (h : ResolveCall.Booked requests call) : ResolveCall.Booked (requests ++ more) call := by
  unfold ResolveCall.Booked at h ⊢
  split at h
  · exact h
  · exact h
  · obtain ⟨hlt, _⟩ := List.getElem?_eq_some_iff.mp h
    rw [List.getElem?_append_left hlt]
    exact h

theorem length_requests (s : DnsResolver) : s.requests.length = s.records.calls.length := List.length_map _

theorem booked_begun (s : DnsResolver) {call : ResolveCall} (h : call ∈ s.begun a) :
    ResolveCall.Booked (s.requests ++ asked a) call := by
  cases a with
  | resolve host now =>
    rw [List.mem_singleton.mp h]
    unfold ResolveCall.Booked course ResolveCall.name asked
    split_ifs with hblank hip
    · exact hblank
    · exact hip
    · simp [hblank, hip, ← length_requests]
  | _ => cases h

theorem waits_begun (s : DnsResolver) {n : Nat} (hn : s.requests.length ≤ n) (hlt : n < (s.requests ++ asked a).length) :
    ∃ call, s.begun a = [call] ∧ call.course = .waits n := by
  cases a with
  | resolve host now =>
    by_cases hask : hostName host = [] ∨ isIp (hostName host) = true
    · simp [asked, hask] at hlt
      omega
    · simp [asked, hask] at hlt
      obtain ⟨hname, hip⟩ := not_or.mp hask
      refine ⟨_, rfl, ?_⟩
      have hlast : s.records.calls.length = n := by
        rw [← length_requests]
        omega
      simp [course, hname, hip, hlast]
  | _ =>
    simp [asked] at hlt
    omega

theorem booked_step (hs : Booked s) (h : step ttl s a = some s') : Booked s' := by
  obtain ⟨hrequests, hcalls⟩ := requests_step h
  constructor
  · intro call hcall
    rw [hcalls] at hcall
    rw [hrequests]
    rcases List.mem_append.mp hcall with hold | hnew
    · exact booked_append (hs.call call hold)
    · exact booked_begun s hnew
  · intro n hn
    rw [hrequests] at hn
    rw [hcalls]
    rcases Nat.lt_or_ge n s.requests.length with hold | hnew
    · obtain ⟨i, call, hcall, hwaits⟩ := hs.waits n hold
      obtain ⟨hlt, _⟩ := List.getElem?_eq_some_iff.mp hcall
      exact ⟨i, call, by rw [List.getElem?_append_left hlt, hcall], hwaits⟩
    · obtain ⟨call, hbegun, hwaits⟩ := waits_begun s hnew hn
      exact ⟨s.calls.length, call, by simp [hbegun], hwaits⟩

theorem run_booked (h : run (step ttl) new as = some s) : Booked s :=
  run_keeps (fun _ _ _ hs hstep => booked_step hs hstep) h ⟨by simp [new], by simp [new, requests, initial]⟩

/-! ## Where an address comes from -/

theorem phase_of_outcome {n : Nat} {call : ResolveCall} {ip : List Char} (hwaits : call.course = .waits n)
    (h : s.outcome call = some (.ok ip)) : ∃ c, s.records.calls[n]? = some c ∧ c.phase = .returned ip := by
  unfold outcome at h
  rw [hwaits] at h
  cases hc : s.records.calls[n]? with
  | none => simp [hc] at h
  | some c =>
    obtain ⟨key, now, phase⟩ := c
    cases phase <;> simp [hc] at h
    exact ⟨_, rfl, by rw [h]⟩

theorem failed_of_outcome {n : Nat} {call : ResolveCall} {e : ResolveError} (hwaits : call.course = .waits n)
    (h : s.outcome call = some (.error e)) :
    e = .raised ∧ ∃ c, s.records.calls[n]? = some c ∧ c.phase = .failed := by
  unfold outcome at h
  rw [hwaits] at h
  cases hc : s.records.calls[n]? with
  | none => simp [hc] at h
  | some c =>
    obtain ⟨key, now, phase⟩ := c
    cases phase <;> simp [hc] at h
    exact ⟨h.symm, _, rfl, rfl⟩

theorem call_of_place (hs : Booked s) {n : Nat} {c : Call (List Char) (List Char)} (hc : s.records.calls[n]? = some c) :
    ∃ (j : Nat) (call : ResolveCall), s.calls[j]? = some call ∧ call.course = .waits n ∧ call.name = c.key ∧
      call.now = c.now := by
  have hget : s.requests[n]? = some c.request := by simp [requests, hc]
  obtain ⟨hlt, _⟩ := List.getElem?_eq_some_iff.mp hget
  obtain ⟨j, call, hj, hwaits⟩ := hs.waits n hlt
  have hplace := hs.call call (List.mem_of_getElem? hj)
  unfold ResolveCall.Booked at hplace
  rw [hwaits] at hplace
  have hrequest : c.request = (call.name, call.now) := Option.some_inj.mp (hget.symm.trans hplace)
  obtain ⟨hname, hnow⟩ := Prod.mk.inj hrequest
  exact ⟨j, call, hj, hwaits, hname.symm, hnow.symm⟩

theorem place_of_call (hs : Booked s) {n : Nat} {call : ResolveCall} (hcall : call ∈ s.calls)
    (hwaits : call.course = .waits n) {c : Call (List Char) (List Char)} (hc : s.records.calls[n]? = some c) :
    call.name = c.key ∧ call.now = c.now := by
  have hplace := hs.call call hcall
  unfold ResolveCall.Booked at hplace
  rw [hwaits] at hplace
  have hget : s.requests[n]? = some c.request := by simp [requests, hc]
  obtain ⟨hname, hnow⟩ := Prod.mk.inj (Option.some_inj.mp (hplace.symm.trans hget))
  exact ⟨hname, hnow⟩

theorem answer_mem {n : Nat} {ip : List Char} (h : ReadThrough.Act.answer n ip ∈ as.flatMap acts) :
    ∃ rest, ResolveAct.answers n (ip :: rest) ∈ as := by
  obtain ⟨a, ha, hmem⟩ := List.mem_flatMap.mp h
  cases a with
  | answers m ips =>
    cases ips with
    | nil => simp [acts] at hmem
    | cons ip' rest =>
      simp only [acts, List.mem_singleton, ReadThrough.Act.answer.injEq] at hmem
      obtain ⟨rfl, rfl⟩ := hmem
      exact ⟨rest, ha⟩
  | resolve host now =>
    simp only [acts] at hmem
    split_ifs at hmem <;> simp at hmem
  | _ => simp [acts] at hmem

theorem fail_mem {n : Nat} (h : ReadThrough.Act.fail n ∈ as.flatMap acts) :
    ResolveAct.fail n ∈ as ∨ ResolveAct.answers n [] ∈ as := by
  obtain ⟨a, ha, hmem⟩ := List.mem_flatMap.mp h
  cases a with
  | answers m ips =>
    cases ips with
    | nil =>
      simp only [acts, List.mem_singleton, ReadThrough.Act.fail.injEq] at hmem
      exact Or.inr (hmem ▸ ha)
    | cons ip rest => simp [acts] at hmem
  | resolve host now =>
    simp only [acts] at hmem
    split_ifs at hmem <;> simp at hmem
  | fail m =>
    simp only [acts, List.mem_singleton, ReadThrough.Act.fail.injEq] at hmem
    exact Or.inl (hmem ▸ ha)
  | _ => simp [acts] at hmem

/-- An address is the one that was given, or DNS has named it first in an answer to a call for exactly this name, which was
this call or began no longer than `cache_ttl` before it. No failure of one call becomes the failure of another. -/
theorem resolve_from_dns (cacheTtl : Int) (as : List ResolveAct) (s : DnsResolver)
    (hrun : run (step cacheTtl) new as = some s) (i : Nat) (call : ResolveCall) (hcall : s.calls[i]? = some call) :
    (∀ ip, s.outcome call = some (.ok ip) → (isIp call.name = true ∧ ip = call.name) ∨
      ∃ (j n : Nat) (other : ResolveCall) (rest : List (List Char)), s.calls[j]? = some other ∧ other.name = call.name ∧
        other.course = .waits n ∧ ResolveAct.answers n (ip :: rest) ∈ as ∧ (j = i ∨ call.now - other.now ≤ cacheTtl)) ∧
    (∀ e, s.outcome call = some (.error e) → (e = .valueError "host is required" ∧ call.name = []) ∨
      (e = .raised ∧ ∃ n, call.course = .waits n ∧ (ResolveAct.fail n ∈ as ∨ ResolveAct.answers n [] ∈ as))) := by
  have hbooked := run_booked hrun
  have hknown := run_known (run_records hrun)
  have hmem := List.mem_of_getElem? hcall
  have hplace := hbooked.call call hmem
  unfold ResolveCall.Booked at hplace
  cases hcourse : call.course with
  | refused =>
    rw [hcourse] at hplace
    simp [outcome, hcourse, hplace]
  | literal =>
    rw [hcourse] at hplace
    have hdone : s.outcome call = some (.ok call.name) := by simp [outcome, hcourse]
    rw [hdone]
    constructor
    · intro ip hip
      cases hip
      exact Or.inl ⟨hplace, rfl⟩
    · intro e he
      cases he
  | waits n =>
    constructor
    · intro ip hip
      obtain ⟨c, hc, hphase⟩ := phase_of_outcome hcourse hip
      obtain ⟨hname, hnow⟩ := place_of_call hbooked hmem hcourse hc
      obtain ⟨m, ts, ⟨hm, hanswer⟩, hage⟩ := hknown.returned n c ip hc hphase
      obtain ⟨rest, hanswers⟩ := answer_mem hanswer
      right
      rcases hage with rfl | hage
      · exact ⟨i, m, call, rest, hcall, rfl, hcourse, hanswers, Or.inl rfl⟩
      · obtain ⟨j, other, hj, hwaits, hother, hbegan⟩ := call_of_place hbooked hm
        exact ⟨j, m, other, rest, hj, hother.trans hname.symm, hwaits, hanswers, Or.inr (by rw [hnow, hbegan]; exact hage)⟩
    · intro e he
      obtain ⟨rfl, c, hc, hphase⟩ := failed_of_outcome hcourse he
      exact Or.inr ⟨rfl, n, rfl, fail_mem (hknown.failed n c hc hphase)⟩

/-- The second call comes while the record of the first is young. -/
def ts01 : List ResolveAct :=
  [.resolve (some "ts01".toList) 100, .look 0, .answers 0 ["10.0.0.5".toList, "10.0.0.6".toList], .store 0,
    .resolve (some " ts01 ".toList) 130]

def ts01Begun : DnsResolver := (run (step 300) new ts01).getD new

def ts01Done : DnsResolver := (run (step 300) new (ts01 ++ [.look 1])).getD new

def ts01Call : ResolveCall := ⟨some " ts01 ".toList, 130, .waits 1⟩

theorem ts01_from_dns :
    (∀ ip, ts01Done.outcome ts01Call = some (.ok ip) → (isIp ts01Call.name = true ∧ ip = ts01Call.name) ∨
      ∃ (j n : Nat) (other : ResolveCall) (rest : List (List Char)), ts01Done.calls[j]? = some other ∧
        other.name = ts01Call.name ∧ other.course = .waits n ∧
        ResolveAct.answers n (ip :: rest) ∈ ts01 ++ [.look 1] ∧ (j = 1 ∨ ts01Call.now - other.now ≤ 300)) ∧
    (∀ e, ts01Done.outcome ts01Call = some (.error e) →
      (e = .valueError "host is required" ∧ ts01Call.name = []) ∨ (e = .raised ∧ ∃ n, ts01Call.course = .waits n ∧
        (ResolveAct.fail n ∈ ts01 ++ [.look 1] ∨ ResolveAct.answers n [] ∈ ts01 ++ [.look 1]))) :=
  resolve_from_dns 300 (ts01 ++ [.look 1]) ts01Done rfl 1 ts01Call rfl

theorem put_outcome {call : ResolveCall} {n : Nat} {c : Call (List Char) (List Char)} (hwaits : call.course = .waits n)
    (hc : s.records.calls[n]? = some c) (found : Option (List Char)) (calls : List ResolveCall) :
    outcome ⟨s.records.put n c (looked found, none), calls⟩ call = found.map Except.ok := by
  unfold outcome
  rw [hwaits]
  dsimp only
  rw [put_calls_self s.records hc]
  cases found <;> rfl

/-- A call that looks into the cache is over at once if the record that was stored last for its name is young enough for
it, whoever asked first, and asks DNS otherwise. -/
theorem look_answers (cacheTtl : Int) (as : List ResolveAct) (s : DnsResolver)
    (hrun : run (step cacheTtl) new as = some s) (call : ResolveCall) (hcall : call ∈ s.calls) (n : Nat)
    (hwaits : call.course = .waits n) (c : Call (List Char) (List Char)) (hc : s.records.calls[n]? = some c)
    (hbegun : c.phase = .begun) :
    ∃ s', step cacheTtl s (.look n) = some s' ∧
      s'.outcome call = (fresh cacheTtl call.now (lastStored s.records.calls (as.flatMap acts) call.name)).map Except.ok ∧
      (fresh cacheTtl call.now (lastStored s.records.calls (as.flatMap acts) call.name) = none →
        s'.records.calls[n]?.map Call.phase = some .asking) := by
  obtain ⟨hname, hnow⟩ := place_of_call (run_booked hrun) hcall hwaits hc
  have hcache := run_cache (run_records hrun) c.key
  have hlook : c.next cacheTtl s.records.cache (.look n) =
      some (looked (fresh cacheTtl c.now (s.records.cache.get? c.key)), none) := by simp [Call.next, hbegun]
  have hstep : ReadThrough.step cacheTtl s.records (.look n) =
      some (s.records.put n c (looked (fresh cacheTtl c.now (s.records.cache.get? c.key)), none)) := by
    simp [ReadThrough.step, ReadThrough.Act.call, hc, hlook]
  refine ⟨_, step_eq_some.mpr ⟨_, run_cons_eq_some.mpr ⟨_, hstep, rfl⟩, rfl⟩, ?_, fun hmiss => ?_⟩
  · rw [hname, hnow, ← hcache]
    exact put_outcome hwaits hc _ _
  · rw [hname, hnow, ← hcache] at hmiss
    dsimp only
    rw [put_calls_self s.records hc, hmiss]
    rfl

theorem ts01_answers : ∃ s', step 300 ts01Begun (.look 1) = some s' ∧
    s'.outcome ts01Call =
      (fresh 300 ts01Call.now (lastStored ts01Begun.records.calls (ts01.flatMap acts) ts01Call.name)).map Except.ok ∧
    (fresh 300 ts01Call.now (lastStored ts01Begun.records.calls (ts01.flatMap acts) ts01Call.name) = none →
      s'.records.calls[1]?.map Call.phase = some .asking) :=
  look_answers 300 ts01 ts01Begun rfl ts01Call (List.mem_of_getElem? (rfl : ts01Begun.calls[1]? = some ts01Call)) 1 rfl
    ⟨"ts01".toList, 130, .begun⟩ rfl rfl

end DnsResolver

end RdpProxy.Relay
