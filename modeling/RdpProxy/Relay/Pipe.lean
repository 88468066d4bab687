import Mathlib.Logic.Function.Basic
import RdpProxy.Lib.Steps
import RdpProxy.Relay.Plugins

/-!
# `relay_bidirectional` (`rdp_relay/relay.py`)

Two pipes, the kill poller and the call that waits for them, on one event loop. A step takes a
task from one of its suspension points, or from the top of its loop, to the next.
-/

open Words RdpProxy.Rdp

namespace RdpProxy.Relay

def READ_CHUNK : Nat := 131072
def WRITE_HIGH_WATER : Nat := 512 * 1024
def WRITE_LOW_WATER : Nat := 64 * 1024

/-! ## Connections -/

inductive Side where
  | client
  | backend
  deriving DecidableEq

def Direction.source : Direction → Side
  | .clientToBackend => .client
  | .backendToClient => .backend

def Direction.sink : Direction → Side
  | .clientToBackend => .backend
  | .backendToClient => .client

def Direction.other : Direction → Direction
  | .clientToBackend => .backendToClient
  | .backendToClient => .clientToBackend

/-- The exceptions that `_pipe` tells apart. -/
inductive PipeError where
  | incompleteRead
  | sslError (reason : String)
  | connectionError (e : String)
  | timeout
  | other (typeName e : String)

def PipeError.reason : PipeError → String
  | .incompleteRead => "incomplete-read"
  | .sslError reason => "ssl-error:" ++ reason
  | .connectionError e => "connection-error:" ++ e
  | .timeout => "ssl-shutdown-timeout"
  | .other typeName e => "error:" ++ typeName ++ ":" ++ e

/-- A stream reader and its transport, as asyncio keeps them. -/
structure Conn where
  buffer : Bytes
  eof : Bool
  error : Option PipeError
  /-- `get_write_buffer_size`. -/
  pending : Nat
  /-- Between `pause_writing` and `resume_writing`. -/
  paused : Bool
  /-- `connection_lost` has been called. -/
  lost : Bool
  /-- `connection_lost` ends the reader, with its exception or with EOF. -/
  ends : lost = true → eof = true ∨ error.isSome = true

namespace Conn

variable (c : Conn)

def feed (data : Bytes) : Conn := { c with buffer := c.buffer ++ data }

def feedEof : Conn := { c with eof := true, ends := fun _ => Or.inl rfl }

def connectionLost (error : Option PipeError) : Conn :=
  match error with
  | none => { c with eof := true, pending := 0, lost := true, ends := fun _ => Or.inl rfl }
  | some e => { c with error := some e, pending := 0, lost := true, ends := fun _ => Or.inr rfl }

def flush (n : Nat) : Conn :=
  { c with pending := c.pending - n, paused := c.paused && decide (WRITE_LOW_WATER < c.pending - n) }

def abort : Conn := { c with pending := 0 }

def consume : Conn := { c with buffer := c.buffer.drop READ_CHUNK }

/-- `writer.write` of `n` bytes, of which the system takes some at once. -/
def write (n accepted : Nat) : Conn :=
  if c.lost then c
  else
    let pending := c.pending + n - accepted
    { c with pending := pending, paused := c.paused || decide (WRITE_HIGH_WATER ≤ pending) }

/-- `reader.read` has nothing to return. -/
def Silent : Prop := c.buffer = [] ∧ c.eof = false ∧ c.error.isNone = true

instance : Decidable c.Silent :=
  decidable_of_iff (c.buffer.isEmpty = true ∧ c.eof = false ∧ c.error.isNone = true) (by simp [Silent])

end Conn

/-! ## Tasks -/

inductive LegPhase where
  | atTop
  | reading
  | draining
  | done (reason : String)
  deriving DecidableEq

structure Leg where
  phase : LegPhase := .atTop
  transferred : Nat := 0
  deriving DecidableEq

structure LegResult where
  direction : Direction
  transferred : Nat
  reason : String
  deriving DecidableEq

structure RelayResult where
  bytesToClient : Nat
  bytesToBackend : Nat
  legs : List LegResult
  deriving DecidableEq

inductive PollerPhase where
  | atTop
  | checking
  | sleeping
  | stopped
  deriving DecidableEq

inductive MainPhase where
  | waiting
  | gathering
  | returned (result : RelayResult)
  deriving DecidableEq

/-- One return of `reader.read` with data. -/
structure Read where
  now : Rat
  direction : Direction
  data : Bytes

structure RelayState (P : Type) where
  conn : Side → Conn
  leg : Direction → Leg
  registry : PluginRegistry P
  killEvent : Bool
  poller : PollerPhase
  main : MainPhase
  checkerKilled : Bool
  /-- The reads so far and what each leg has written, for the statements only. -/
  reads : List Read
  writes : Direction → List Bytes

namespace RelayState

variable {P : Type} [RdpPlugin P] (ctx : SessionContext) (s : RelayState P) (d : Direction)

def initial (conn : Side → Conn) (registry : PluginRegistry P) : RelayState P where
  conn := conn
  leg := fun _ => {}
  registry := registry
  killEvent := false
  poller := .atTop
  main := .waiting
  checkerKilled := false
  reads := []
  writes := fun _ => []

def setConn (side : Side) (c : Conn) : RelayState P := { s with conn := Function.update s.conn side c }

def setPhase (phase : LegPhase) : RelayState P :=
  { s with leg := Function.update s.leg d { s.leg d with phase := phase } }

/-! ### `_pipe` -/

/-- Where the leg goes from a write: into `writer.drain` when the buffer is high. -/
def afterWrite (sink : Conn) : LegPhase :=
  if WRITE_HIGH_WATER ≤ sink.pending then
    match sink.error with
    | some e => .done e.reason
    | none => if sink.paused then .draining else .atTop
  else .atTop

/-- A turn of the loop behind `reader.read`, up to the next suspension or to the top. -/
def deliver (now : Rat) (accepted : Nat) : RelayState P :=
  let chunk := (s.conn d.source).buffer.take READ_CHUNK
  let (registry, data) := s.registry.onPacket now d chunk ctx
  let read : RelayState P := { s.setConn d.source (s.conn d.source).consume with
    registry := registry
    reads := s.reads ++ [⟨now, d, chunk⟩]
    writes := Function.update s.writes d (s.writes d ++ [data])
    leg := Function.update s.leg d { s.leg d with transferred := (s.leg d).transferred + data.length } }
  -- A transport that `relay_bidirectional` has aborted takes nothing.
  let sink := if s.main = .waiting then (s.conn d.sink).write data.length accepted else s.conn d.sink
  (read.setConn d.sink sink).setPhase d (afterWrite sink)

def read (now : Rat) (accepted : Nat) : RelayState P :=
  match (s.conn d.source).error with
  | some e => s.setPhase d (.done e.reason)
  | none =>
    if (s.conn d.source).buffer ≠ [] then s.deliver ctx d now accepted
    else if (s.conn d.source).eof then s.setPhase d (.done "eof")
    else s.setPhase d .reading

/-- `reader.read` woken up, which looks at its buffer first. -/
def resumeRead (now : Rat) (accepted : Nat) : Option (RelayState P) :=
  if (s.conn d.source).buffer ≠ [] then some (s.deliver ctx d now accepted)
  else
    match (s.conn d.source).error with
    | some e => some (s.setPhase d (.done e.reason))
    | none => if (s.conn d.source).eof then some (s.setPhase d (.done "eof")) else none

/-- `writer.drain` woken up, by `resume_writing` or by `connection_lost`. -/
def resumeDrain : Option (RelayState P) :=
  if (s.conn d.sink).paused then
    if (s.conn d.sink).lost then
      match (s.conn d.sink).error with
      | some e => some (s.setPhase d (.done e.reason))
      | none => some (s.setPhase d .atTop)
    else none
  else some (s.setPhase d .atTop)

def turn (now : Rat) (accepted : Nat) : Option (RelayState P) :=
  match (s.leg d).phase with
  | .atTop => some (if s.killEvent then s.setPhase d (.done "killed") else s.read ctx d now accepted)
  | .reading => s.resumeRead ctx d now accepted
  | .draining => s.resumeDrain d
  | .done _ => none

/-! ### `_kill_poller` -/

def pollTop : Option (RelayState P) :=
  if s.poller = .atTop then some { s with poller := if s.killEvent then .stopped else .checking } else none

/-- The check returns, or raises, which ends the task. -/
def checked (killed : Option Bool) : Option (RelayState P) :=
  if s.poller = .checking then
    match killed with
    | some true => some { s with poller := .stopped, killEvent := true, checkerKilled := true }
    | some false => some { s with poller := .sleeping }
    | none => some { s with poller := .stopped }
  else none

def pollWake : Option (RelayState P) :=
  if s.poller = .sleeping then some { s with poller := .atTop } else none

/-! ### `relay_bidirectional` -/

def reasonOf : Option String :=
  match (s.leg d).phase with
  | .done reason => some reason
  | _ => none

/-- What `relay_bidirectional` does once a leg is done, up to `asyncio.gather`. -/
def mainWake : Option (RelayState P) :=
  if s.main = .waiting ∧ ((s.reasonOf .clientToBackend).isSome ∨ (s.reasonOf .backendToClient).isSome) then
    some { s with killEvent := true, poller := .stopped, conn := fun side => (s.conn side).abort, main := .gathering }
  else none

def legResult (reason : String) : LegResult := ⟨d, (s.leg d).transferred, reason⟩

def mainReturn : Option (RelayState P) :=
  if s.main = .gathering then
    match s.reasonOf .clientToBackend, s.reasonOf .backendToClient with
    | some r1, some r2 =>
      some { s with main := .returned {
        bytesToClient := (s.leg .backendToClient).transferred
        bytesToBackend := (s.leg .clientToBackend).transferred
        legs := [s.legResult .clientToBackend r1, s.legResult .backendToClient r2] } }
    | _, _ => none
  else none

end RelayState

/-! ## Steps -/

inductive Act where
  /-- A peer sends bytes, ends its stream or loses its connection. -/
  | feed (side : Side) (data : Bytes)
  | eof (side : Side)
  | closed (side : Side) (error : Option PipeError)
  | flush (side : Side) (n : Nat)
  /-- `connection_lost` after an abort. -/
  | aborted (side : Side)
  | turn (d : Direction) (now : Rat) (accepted : Nat)
  | pollTop
  | checked (killed : Option Bool)
  | pollWake
  | mainWake
  | mainReturn

/-- The relay's own steps: all but what a peer does. -/
def Act.Internal : Act → Prop
  | .feed _ _ | .eof _ | .closed _ _ => False
  | _ => True

namespace RelayState

variable {P : Type} [RdpPlugin P]

def step (ctx : SessionContext) (s : RelayState P) : Act → Option (RelayState P)
  | .feed side data =>
    if s.main = .waiting ∧ (s.conn side).lost = false ∧ (s.conn side).eof = false then
      some (s.setConn side ((s.conn side).feed data))
    else none
  | .eof side =>
    if s.main = .waiting ∧ (s.conn side).lost = false then some (s.setConn side (s.conn side).feedEof) else none
  | .closed side error =>
    if (s.conn side).lost = false then some (s.setConn side ((s.conn side).connectionLost error)) else none
  | .flush side n =>
    if s.main = .waiting ∧ (s.conn side).lost = false then some (s.setConn side ((s.conn side).flush n)) else none
  | .aborted side =>
    if s.main ≠ .waiting ∧ (s.conn side).lost = false then
      some (s.setConn side ((s.conn side).connectionLost none))
    else none
  | .turn d now accepted => s.turn ctx d now accepted
  | .pollTop => s.pollTop
  | .checked killed => s.checked killed
  | .pollWake => s.pollWake
  | .mainWake => s.mainWake
  | .mainReturn => s.mainReturn

end RelayState

/-! ## What a step does -/

namespace RelayState

variable {P : Type} [RdpPlugin P] {ctx : SessionContext} {s s' : RelayState P} {d : Direction}

/-- The control state is the same, and so is the other leg. -/
structure Frame (d : Direction) (s s' : RelayState P) : Prop where
  killEvent : s'.killEvent = s.killEvent
  main : s'.main = s.main
  checkerKilled : s'.checkerKilled = s.checkerKilled
  other : s'.leg d.other = s.leg d.other

omit [RdpPlugin P] in
theorem setPhase_frame (s : RelayState P) (d : Direction) (phase : LegPhase) : Frame d s (s.setPhase d phase) :=
  ⟨rfl, rfl, rfl, by cases d <;> rfl⟩

omit [RdpPlugin P] in
@[simp] theorem setPhase_phase (s : RelayState P) (d : Direction) (phase : LegPhase) :
    ((s.setPhase d phase).leg d).phase = phase := by simp [setPhase]

/-- How a leg stands behind a write: at the top again, in `drain`, or ended by an exception. -/
def Delivered (phase : LegPhase) : Prop := phase = .atTop ∨ phase = .draining ∨ ∃ e : PipeError, phase = .done e.reason

theorem afterWrite_delivered (sink : Conn) : Delivered (afterWrite sink) := by
  unfold afterWrite
  cases sink.error with
  | some e =>
    simp only
    split_ifs
    · exact Or.inr (Or.inr ⟨e, rfl⟩)
    · exact Or.inl rfl
  | none =>
    simp only
    split_ifs
    · exact Or.inr (Or.inl rfl)
    · exact Or.inl rfl
    · exact Or.inl rfl

theorem deliver_spec (ctx : SessionContext) (s : RelayState P) (d : Direction) (now : Rat) (accepted : Nat) :
    Frame d s (s.deliver ctx d now accepted) ∧ Delivered ((s.deliver ctx d now accepted).leg d).phase := by
  refine ⟨⟨rfl, rfl, rfl, by cases d <;> rfl⟩, ?_⟩
  rw [deliver]
  simp only [setPhase_phase]
  exact afterWrite_delivered _

omit [RdpPlugin P] in
theorem resumeDrain_spec (h : s.resumeDrain d = some s') : s' = s.setPhase d .atTop ∨
    ∃ e, (s.conn d.sink).error = some e ∧ (s.conn d.sink).lost = true ∧ (s.conn d.sink).paused = true ∧
      s' = s.setPhase d (.done e.reason) := by
  unfold resumeDrain at h
  split_ifs at h with hpaused hlost
  · cases herror : (s.conn d.sink).error with
    | some e =>
      rw [herror] at h
      cases h
      exact Or.inr ⟨e, rfl, hlost, hpaused, rfl⟩
    | none =>
      rw [herror] at h
      cases h
      exact Or.inl rfl
  · cases h
    exact Or.inl rfl

theorem turn_cases {now : Rat} {accepted : Nat} (h : s.turn ctx d now accepted = some s') :
    (s.conn d.source).buffer ≠ [] ∧ s' = s.deliver ctx d now accepted ∨ ∃ phase, s' = s.setPhase d phase := by
  unfold turn at h
  cases hphase : (s.leg d).phase with
  | atTop =>
    rw [hphase] at h
    simp only [Option.some.injEq] at h
    subst h
    split_ifs with hk
    · exact Or.inr ⟨_, rfl⟩
    · unfold read
      cases (s.conn d.source).error with
      | some e => exact Or.inr ⟨_, rfl⟩
      | none =>
        simp only
        split_ifs with hb heof
        · exact Or.inl ⟨hb, rfl⟩
        · exact Or.inr ⟨_, rfl⟩
        · exact Or.inr ⟨_, rfl⟩
  | reading =>
    rw [hphase] at h
    simp only [resumeRead] at h
    by_cases hb : (s.conn d.source).buffer ≠ []
    · rw [if_pos hb] at h
      cases h
      exact Or.inl ⟨hb, rfl⟩
    · rw [if_neg hb] at h
      cases herror : (s.conn d.source).error with
      | some e =>
        rw [herror] at h
        cases h
        exact Or.inr ⟨_, rfl⟩
      | none =>
        rw [herror] at h
        simp only at h
        split_ifs at h
        cases h
        exact Or.inr ⟨_, rfl⟩
  | draining =>
    rw [hphase] at h
    rcases resumeDrain_spec h with rfl | ⟨e, _, _, _, rfl⟩
    · exact Or.inr ⟨_, rfl⟩
    · exact Or.inr ⟨_, rfl⟩
  | done r =>
    rw [hphase] at h
    exact absurd h (by simp)

theorem turn_frame {now : Rat} {accepted : Nat} (h : s.turn ctx d now accepted = some s') : Frame d s s' := by
  rcases turn_cases h with ⟨_, rfl⟩ | ⟨phase, rfl⟩
  · exact (deliver_spec ctx s d now accepted).1
  · exact setPhase_frame s d phase

inductive Moves (ctx : SessionContext) (s : RelayState P) : Act → RelayState P → Prop where
  | feed {side : Side} {data : Bytes} (hmain : s.main = .waiting) :
      Moves ctx s (.feed side data) (s.setConn side ((s.conn side).feed data))
  | eof {side : Side} (hmain : s.main = .waiting) :
      Moves ctx s (.eof side) (s.setConn side (s.conn side).feedEof)
  | flush {side : Side} {n : Nat} (hmain : s.main = .waiting) :
      Moves ctx s (.flush side n) (s.setConn side ((s.conn side).flush n))
  | closed {side : Side} {error : Option PipeError} :
      Moves ctx s (.closed side error) (s.setConn side ((s.conn side).connectionLost error))
  | aborted {side : Side} (hmain : s.main ≠ .waiting) :
      Moves ctx s (.aborted side) (s.setConn side ((s.conn side).connectionLost none))
  | turn {d : Direction} {now : Rat} {accepted : Nat} {s' : RelayState P}
      (hturn : s.turn ctx d now accepted = some s') : Moves ctx s (.turn d now accepted) s'
  | poll {a : Act} {poller : PollerPhase} (ha : a = .pollTop ∨ a = .pollWake ∨ ∃ r, a = .checked r) :
      Moves ctx s a { s with poller := poller }
  | kill : Moves ctx s (.checked (some true))
      { s with poller := .stopped, killEvent := true, checkerKilled := true }
  | mainWake (hmain : s.main = .waiting) (d : Direction) (hdone : (s.reasonOf d).isSome = true) :
      Moves ctx s .mainWake
        { s with killEvent := true, poller := .stopped, conn := fun side => (s.conn side).abort, main := .gathering }
  | mainReturn {r1 r2 : String} (hmain : s.main = .gathering) (h1 : s.reasonOf .clientToBackend = some r1)
      (h2 : s.reasonOf .backendToClient = some r2) :
      Moves ctx s .mainReturn { s with main := .returned {
        bytesToClient := (s.leg .backendToClient).transferred
        bytesToBackend := (s.leg .clientToBackend).transferred
        legs := [s.legResult .clientToBackend r1, s.legResult .backendToClient r2] } }

theorem step_moves {a : Act} (h : step ctx s a = some s') : Moves ctx s a s' := by
  cases a with
  | feed side data => simp only [step] at h; split_ifs at h with hc; cases h; exact .feed hc.1
  | eof side => simp only [step] at h; split_ifs at h with hc; cases h; exact .eof hc.1
  | closed side error => simp only [step] at h; split_ifs at h; cases h; exact .closed
  | flush side n => simp only [step] at h; split_ifs at h with hc; cases h; exact .flush hc.1
  | aborted side => simp only [step] at h; split_ifs at h with hc; cases h; exact .aborted hc.1
  | turn d now accepted => exact .turn h
  | pollTop => simp only [step, pollTop] at h; split_ifs at h <;> (cases h; exact .poll (Or.inl rfl))
  | pollWake => simp only [step, pollWake] at h; split_ifs at h; cases h; exact .poll (Or.inr (Or.inl rfl))
  | checked killed =>
    simp only [step, checked] at h
    split_ifs at h
    match killed, h with
    | some true, h => cases h; exact .kill
    | some false, h => cases h; exact .poll (Or.inr (Or.inr ⟨_, rfl⟩))
    | none, h => cases h; exact .poll (Or.inr (Or.inr ⟨_, rfl⟩))
  | mainWake =>
    simp only [step, mainWake] at h
    split_ifs at h with hc
    cases h
    rcases hc.2 with hd | hd
    · exact .mainWake hc.1 _ hd
    · exact .mainWake hc.1 _ hd
  | mainReturn =>
    simp only [step, mainReturn] at h
    split_ifs at h with hmain
    cases h1 : s.reasonOf .clientToBackend with
    | none => rw [h1] at h; exact absurd h (by simp)
    | some r1 =>
      cases h2 : s.reasonOf .backendToClient with
      | none => rw [h1, h2] at h; exact absurd h (by simp)
      | some r2 =>
        rw [h1, h2] at h
        cases h
        exact .mainReturn hmain h1 h2

end RelayState

/-! ## A relay at its start -/

def idleConn : Conn where
  buffer := []
  eof := false
  error := none
  pending := 0
  paused := false
  lost := false
  ends := by simp

def idleContext : SessionContext := handlerContext "c0" REQUESTED_PROTOCOLS_HYBRID requested_protocols_hybrid_lt

def idleRelay : RelayState RelayPlugin := .initial (fun _ => idleConn) (runServerPlugins 3600 0)

end RdpProxy.Relay
