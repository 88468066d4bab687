import RdpProxy.Admin.KillRoutes
import RdpProxy.Lib.Sweep

/-!
# The keys that a restart of a relay deletes (`redis_store/active_tracker.py`)

`reconcile_stale_active_on_startup` iterates over six patterns while the portal, the panel and the other relays go on.
-/

open Steps Sweep

namespace RdpProxy.Tracker

open Admin (activeSession killFlag connToken tokenKey)

/-! ## The source -/

def webSession (sessionId : List Char) : List Char := "rdp:web:".toList ++ sessionId

def adminWebSession (sessionId : List Char) : List Char := "rdp:admin:web:".toList ++ sessionId

def flushPatterns (instanceId : List Char) : List (List Char) :=
  [activeSession instanceId [] ++ ['*'], "rdp:token:*".toList, "rdp:conn-token:*".toList, "rdp:kill:*".toList,
    "rdp:web:*".toList, "rdp:admin:web:*".toList]

/-- The text has no character that a pattern reads as something else. -/
def isPlain (text : List Char) : Bool := text.all fun c => !(['*', '?', '[', '\\'].contains c)

/-- The patterns of Redis, as far as they are needed: a text without special characters stands for itself, and an
asterisk at the end for anything. -/
structure Glob where
  matches? : List Char → List Char → Bool
  plain : ∀ text key, isPlain text = true → matches? (text ++ ['*']) key = text.isPrefixOf key

def startupFlush (glob : Glob) (instanceId : List Char) (keys : Finset (List Char)) : Sweep.State (List Char) :=
  Sweep.start ((flushPatterns instanceId).map glob.matches?) keys

/-! ## What is flushed -/

/-- The keys of this relay's connections, and those of every token, login and kill. -/
inductive Transient (instanceId : List Char) : List Char → Prop where
  | active (connectionId : List Char) : Transient instanceId (activeSession instanceId connectionId)
  | token (token : List Char) : Transient instanceId (tokenKey token)
  | connToken (connectionId : List Char) : Transient instanceId (connToken connectionId)
  | kill (connectionId : List Char) : Transient instanceId (killFlag connectionId)
  | web (sessionId : List Char) : Transient instanceId (webSession sessionId)
  | adminWeb (sessionId : List Char) : Transient instanceId (adminWebSession sessionId)

def flushPrefixes (instanceId : List Char) : List (List Char) :=
  [activeSession instanceId [], tokenKey [], connToken [], killFlag [], webSession [], adminWebSession []]

variable {instanceId : List Char} {key : List Char}

theorem flushPatterns_eq (instanceId : List Char) :
    flushPatterns instanceId = (flushPrefixes instanceId).map (· ++ ['*']) := by
  have hconst : ["rdp:token:*".toList, "rdp:conn-token:*".toList, "rdp:kill:*".toList, "rdp:web:*".toList,
      "rdp:admin:web:*".toList] = [tokenKey [], connToken [], killFlag [], webSession [], adminWebSession []].map (· ++ ['*']) := by
    decide
  rw [flushPatterns, hconst]
  rfl

theorem isPlain_name {start name : List Char} (hstart : isPlain start = true) (hname : isPlain name = true) :
    isPlain (start ++ (name ++ [':'])) = true := by
  simp only [isPlain, List.all_append, Bool.and_eq_true] at hstart hname ⊢
  exact ⟨hstart, hname, by decide⟩

theorem prefixes_plain (h : isPlain instanceId = true) : ∀ text ∈ flushPrefixes instanceId, isPlain text = true := by
  have hconst : [tokenKey [], connToken [], killFlag [], webSession [], adminWebSession []].all isPlain = true := by decide
  have hactive : isPlain (activeSession instanceId []) = true :=
    isPlain_name (by decide : isPlain "rdp:active:".toList = true) h
  intro text htext
  rcases List.mem_cons.mp htext with rfl | htext
  · exact hactive
  · exact List.all_eq_true.mp hconst text htext

theorem key_append (instanceId rest : List Char) :
    activeSession instanceId [] ++ rest = activeSession instanceId rest ∧ tokenKey [] ++ rest = tokenKey rest ∧
    connToken [] ++ rest = connToken rest ∧ killFlag [] ++ rest = killFlag rest ∧
    webSession [] ++ rest = webSession rest ∧ adminWebSession [] ++ rest = adminWebSession rest := by
  have hkey (text : List Char) : text ++ [] ++ rest = text ++ rest := by rw [List.append_nil]
  have hactive (text : List Char) : text ++ (instanceId ++ [':']) ++ rest = text ++ (instanceId ++ ':' :: rest) := by simp
  exact ⟨hactive _, hkey _, hkey _, hkey _, hkey _, hkey _⟩

theorem transient_iff : Transient instanceId key ↔ ∃ text ∈ flushPrefixes instanceId, text <+: key := by
  constructor
  · intro h
    cases h with
    | active c => exact ⟨activeSession instanceId [], by simp [flushPrefixes], c, (key_append instanceId c).1⟩
    | token t => exact ⟨tokenKey [], by simp [flushPrefixes], t, (key_append instanceId t).2.1⟩
    | connToken c => exact ⟨connToken [], by simp [flushPrefixes], c, (key_append instanceId c).2.2.1⟩
    | kill c => exact ⟨killFlag [], by simp [flushPrefixes], c, (key_append instanceId c).2.2.2.1⟩
    | web w => exact ⟨webSession [], by simp [flushPrefixes], w, (key_append instanceId w).2.2.2.2.1⟩
    | adminWeb w => exact ⟨adminWebSession [], by simp [flushPrefixes], w, (key_append instanceId w).2.2.2.2.2⟩
  · rintro ⟨text, htext, rest, rfl⟩
    obtain ⟨hactive, htoken, hconn, hkill, hweb, hadmin⟩ := key_append instanceId rest
    simp only [flushPrefixes, List.mem_cons, List.not_mem_nil, or_false] at htext
    rcases htext with rfl | rfl | rfl | rfl | rfl | rfl
    · exact hactive ▸ .active rest
    · exact htoken ▸ .token rest
    · exact hconn ▸ .connToken rest
    · exact hkill ▸ .kill rest
    · exact hweb ▸ .web rest
    · exact hadmin ▸ .adminWeb rest

theorem matches_iff (glob : Glob) (h : isPlain instanceId = true) :
    (∃ p ∈ (flushPatterns instanceId).map glob.matches?, p key = true) ↔ Transient instanceId key := by
  rw [transient_iff, flushPatterns_eq, List.map_map]
  simp only [List.mem_map, Function.comp_apply, exists_exists_and_eq_and]
  refine exists_congr fun text => and_congr_right fun htext => ?_
  rw [glob.plain text key (prefixes_plain h text htext), List.isPrefixOf_iff_prefix]

/-! ### The other relays -/

theorem colon_prefix {name other rest : List Char} (h : ':' ∉ rest) :
    name ++ [':'] <+: other ++ ':' :: rest ↔ other = name ∨ name ++ [':'] <+: other := by
  constructor
  · rintro ⟨more, hmore⟩
    have hsplit : name ++ ':' :: more = other ++ ':' :: rest := by simpa using hmore
    rcases List.append_eq_append_iff.mp hsplit with ⟨between, rfl, hbetween⟩ | ⟨between, rfl, hbetween⟩
    · cases between with
      | nil => exact Or.inl (List.append_nil _)
      | cons c between =>
        obtain ⟨rfl, _⟩ := List.cons.inj hbetween
        exact Or.inr ⟨between, by simp⟩
    · cases between with
      | nil => exact Or.inl (List.append_nil _).symm
      | cons c between =>
        obtain ⟨_, hrest⟩ := List.cons.inj hbetween
        exact absurd (hrest ▸ by simp) h
  · rintro (rfl | ⟨more, rfl⟩)
    · exact ⟨rest, by simp⟩
    · exact ⟨more ++ ':' :: rest, by simp⟩

theorem not_prefix_of_letter {start text rest : List Char} (hlong : 5 < start.length) (h : text[5]? ≠ start[5]?)
    (htext : 5 < text.length) : ¬ text <+: start ++ rest := by
  rintro ⟨more, hmore⟩
  have hletter := congrArg (fun l : List Char => l[5]?) hmore
  simp only [List.getElem?_append_left htext, List.getElem?_append_left hlong] at hletter
  exact h hletter

theorem other_families {other connectionId text : List Char}
    (h : text ∈ [tokenKey [], connToken [], killFlag [], webSession [], adminWebSession []]) :
    ¬ text <+: activeSession other connectionId := by
  have hletters : [tokenKey [], connToken [], killFlag [], webSession [], adminWebSession []].all
      (fun text => 5 < text.length && text[5]? != "rdp:active:".toList[5]?) = true := by decide
  have hletter := List.all_eq_true.mp hletters text h
  simp only [Bool.and_eq_true, decide_eq_true_eq, bne_iff_ne] at hletter
  exact not_prefix_of_letter (by decide) hletter.2 hletter.1

/-- The key of a connection of another relay goes only if the name of that relay begins with this one's and a colon. -/
theorem transient_activeSession_iff {other connectionId : List Char} (hcid : ':' ∉ connectionId) :
    Transient instanceId (activeSession other connectionId) ↔ other = instanceId ∨ instanceId ++ [':'] <+: other := by
  have hown : activeSession instanceId [] <+: activeSession other connectionId ↔
      instanceId ++ [':'] <+: other ++ ':' :: connectionId := List.prefix_append_right_inj _
  rw [transient_iff, ← colon_prefix hcid, ← hown]
  constructor
  · rintro ⟨text, htext, hprefix⟩
    rcases List.mem_cons.mp htext with rfl | htext
    · exact hprefix
    · exact absurd hprefix (other_families htext)
  · intro hprefix
    exact ⟨activeSession instanceId [], List.mem_cons_self, hprefix⟩

/-! ## The flush -/

/-- The connections of this relay, and the tokens, logins and kills of every relay, are gone when the flush is over unless
they are written while it lasts. Everything else is left alone, also where the flush ends early: so are the connections
of the other relays, but for those whose name begins with this one's and a colon. -/
theorem startup_flush (glob : Glob) (instanceId : List Char) (hplain : isPlain instanceId = true)
    (keys : Finset (List Char)) (as : List (Sweep.Act (List Char))) (s : Sweep.State (List Char))
    (hrun : run step (startupFlush glob instanceId keys) as = some s) :
    (∀ key, Transient instanceId key → s.todo = [] → Sweep.Act.set key ∉ as → key ∉ s.keys) ∧
    (∀ key, ¬ Transient instanceId key → decide (key ∈ s.keys) = replay key as (decide (key ∈ keys))) ∧
    (∀ other connectionId, ':' ∉ connectionId → (Transient instanceId (activeSession other connectionId) ↔
      other = instanceId ∨ instanceId ++ [':'] <+: other)) := by
  refine ⟨fun key hkey => ?_, fun key hkey => ?_, fun other connectionId => transient_activeSession_iff⟩
  · exact (swept hrun key).1 ((matches_iff glob hplain).mpr hkey)
  · refine (swept hrun key).2 fun p hp => ?_
    rw [← matches_iff glob hplain] at hkey
    exact Bool.eq_false_iff.mpr fun hmatch => hkey ⟨p, hp, hmatch⟩

/-- It reads no special character but an asterisk at the end. -/
def prefixGlob : Glob where
  matches? pattern key := pattern.dropLast.isPrefixOf key
  plain text key _ := by rw [List.dropLast_concat]

/-- A token is issued while the flush is at the kills. -/
def restart : List (Sweep.Act (List Char)) :=
  [.scan [activeSession ['a'] ['1']] true, .delete, .next, .scan [] true, .next, .scan [] true, .next, .set (tokenKey ['x']),
    .scan [] true, .next, .scan [] true, .next, .scan [] true, .next]

def beforeRestart : Finset (List Char) := {activeSession ['a'] ['1'], activeSession ['b'] ['2']}

def afterRestart : Sweep.State (List Char) :=
  (run step (startupFlush prefixGlob ['a'] beforeRestart) restart).getD (startupFlush prefixGlob ['a'] beforeRestart)

theorem restart_flushed :
    (∀ key, Transient ['a'] key → afterRestart.todo = [] → Sweep.Act.set key ∉ restart → key ∉ afterRestart.keys) ∧
    (∀ key, ¬ Transient ['a'] key → decide (key ∈ afterRestart.keys) = replay key restart (decide (key ∈ beforeRestart))) ∧
    (∀ other connectionId, ':' ∉ connectionId → (Transient ['a'] (activeSession other connectionId) ↔
      other = ['a'] ∨ ['a'] ++ [':'] <+: other)) :=
  startup_flush prefixGlob ['a'] (by decide) beforeRestart restart afterRestart rfl

end RdpProxy.Tracker
