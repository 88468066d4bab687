import RdpProxy.Config.PutErrors
import RdpProxy.Lib.Text
import RdpProxy.Lib.TextFile

/-!
# The port in the `.env` file (`_update_dotenv_port`)

The file is read line by line and written anew. A line that is appended begins where the text ends, which need not
be the beginning of a line.
-/

open TextFile

namespace RdpProxy.Admin

/-! ## The source -/

/-- What is at `DOTENV_PATH`. Opening or decoding may also fail with something else than `FileNotFoundError`. -/
inductive Dotenv where
  | absent
  | unreadable
  | text (content : List Char)
  deriving DecidableEq

/-- How the writing goes: to its end, not at all, or up to an error. -/
inductive Writing where
  | done
  | refused
  | brokenOff (written : Nat)

def publicPort : List Char := "PUBLIC_PORT".toList

def portLine (port : Int) : List Char := "PUBLIC_PORT=".toList ++ Text.intText port ++ ['\n']

/-- `line.startswith("PUBLIC_PORT=")` -/
def StartsPort (line : List Char) : Prop := "PUBLIC_PORT=".toList <+: line

instance (line : List Char) : Decidable (StartsPort line) := inferInstanceAs (Decidable (_ <+: _))

/-- One turn of the loop over the lines, on `lines` and `found`. -/
def readLine (port : Int) (read : List (List Char) × Bool) (line : List Char) : List (List Char) × Bool :=
  if StartsPort line then (read.1 ++ [portLine port], true) else (read.1 ++ [line], read.2)

def newLines (port : Int) (old : List (List Char)) : List (List Char) :=
  let (lines, found) := old.foldl (readLine port) ([], false)
  if found then lines else lines ++ [portLine port]

def writeLines (file : Dotenv) (lines : List (List Char)) : Writing → Bool × Dotenv
  | .done => (true, .text lines.flatten)
  | .refused => (false, file)
  | .brokenOff written => (false, .text (lines.flatten.take written))

/-- `_update_dotenv_port`: what it returns, or none where it raises, and the file. -/
def updateDotenvPort (file : Dotenv) (port : Int) (writing : Writing) : Option Bool × Dotenv :=
  match file with
  | .unreadable => (none, file)
  | .absent =>
    let (ok, written) := writeLines file (newLines port []) writing
    (some ok, written)
  | .text content =>
    let (ok, written) := writeLines file (newLines port (fileLines (universal content))) writing
    (some ok, written)

/-! ## What the file says -/

def envLines : Dotenv → List (List Char)
  | .text content => textLines content
  | _ => []

/-- The file gives the port and no other one, and its other lines are those of the old file. -/
structure PortSet (old : Dotenv) (port : Int) (new : Dotenv) : Prop where
  given : ∃ line ∈ envLines new, Gives publicPort line
  only : ∀ line ∈ envLines new, ∀ value, keyValue line = some (publicPort, value) → value = Text.intText port
  others : ((envLines new).filter fun line => ¬ Gives publicPort line) =
    (envLines old).filter fun line => ¬ Gives publicPort line

/-- There is a line to be replaced, or one can be appended. -/
def Dotenv.Rewritable (file : Dotenv) : Prop :=
  (∃ line ∈ envLines file, Gives publicPort line) ∨ ∀ content, file = .text content → Complete content

def Dotenv.read : Dotenv → List (List Char)
  | .text content => fileLines (universal content)
  | _ => []

/-! ## The lines that are written -/

variable {file new : Dotenv} {port : Int} {line : List Char} {old : List (List Char)}

def replaceLine (port : Int) (line : List Char) : List Char :=
  if StartsPort line then portLine port else line

theorem readLine_eq (port : Int) (read : List (List Char) × Bool) (line : List Char) :
    readLine port read line =
      (read.1 ++ [replaceLine port line], read.2 || decide (StartsPort line)) := by
  unfold readLine replaceLine
  split_ifs with hport
  · simp [hport]
  · simp [hport]

theorem foldl_readLine (port : Int) (old lines : List (List Char)) (found : Bool) :
    old.foldl (readLine port) (lines, found) =
      (lines ++ old.map (replaceLine port), found || old.any fun line => StartsPort line) := by
  induction old generalizing lines found with
  | nil => simp
  | cons line rest ih =>
    rw [List.foldl_cons, readLine_eq, ih, List.map_cons, List.any_cons, Bool.or_assoc, List.append_assoc]
    rfl

theorem newLines_found (port : Int) (h : ∃ line ∈ old, StartsPort line) :
    newLines port old = old.map (replaceLine port) := by
  unfold newLines
  rw [foldl_readLine]
  simp [h]

theorem newLines_absent (port : Int) (h : ¬ ∃ line ∈ old, StartsPort line) :
    newLines port old = old ++ [portLine port] := by
  have hsame : old.map (replaceLine port) = old := by
    refine (List.map_congr_left fun line hline => ?_).trans (List.map_id' old)
    exact if_neg fun hport => h ⟨line, hline, hport⟩
  unfold newLines
  rw [foldl_readLine, hsame]
  simp [h]

theorem newLines_cases (port : Int) (old : List (List Char)) :
    (∃ line ∈ old, StartsPort line) ∧ newLines port old = old.map (replaceLine port) ∨
    (∀ line ∈ old, ¬ StartsPort line) ∧ newLines port old = old ++ [portLine port] := by
  by_cases h : ∃ line ∈ old, StartsPort line
  · exact .inl ⟨h, newLines_found port h⟩
  · exact .inr ⟨fun line hline hport => h ⟨line, hline, hport⟩, newLines_absent port h⟩

theorem portLine_body (port : Int) : '\n' ∉ "PUBLIC_PORT=".toList ++ Text.intText port := by
  rw [List.mem_append, not_or]
  exact ⟨by decide, Text.newline_notMem_intText port⟩

theorem ended_portLine (port : Int) : Ended (portLine port) := ⟨_, portLine_body port, rfl⟩

theorem startsPort_portLine (port : Int) : StartsPort (portLine port) := by
  unfold StartsPort portLine
  rw [List.append_assoc]
  exact List.prefix_append _ _

theorem keyValue_portLine (port : Int) : keyValue (chomp (portLine port)) = some (publicPort, Text.intText port) := by
  unfold portLine
  rw [chomp_concat (portLine_body port)]
  exact keyValue_iff.mpr ⟨by decide, rfl⟩

theorem gives_chomp : Gives publicPort (chomp line) ↔ StartsPort line := by
  rw [gives_iff (by decide)]
  exact prefix_chomp (by decide)

theorem gives_portLine (port : Int) : Gives publicPort (chomp (portLine port)) := ⟨_, keyValue_portLine port⟩

theorem read_text (content : List Char) : Dotenv.read (.text content) = fileLines (universal content) := rfl

theorem envLines_eq (file : Dotenv) : envLines file = file.read.map chomp := by
  rcases file with _ | _ | content
  · rfl
  · rfl
  · rfl

theorem cr_notMem_newLines (file : Dotenv) (port : Int) : ∀ l ∈ newLines port file.read, '\r' ∉ l := by
  have hport : '\r' ∉ portLine port := by
    unfold portLine
    simp only [List.mem_append, not_or]
    exact ⟨⟨by decide, Text.notMem_intText (by decide) (by decide) port⟩, by decide⟩
  have hread : ∀ l ∈ file.read, '\r' ∉ l := by
    rcases file with _ | _ | content
    · simp [Dotenv.read]
    · simp [Dotenv.read]
    · exact fun l hl => cr_notMem_of_mem_fileLines hl
  intro l hl
  rcases newLines_cases port file.read with ⟨-, hnew⟩ | ⟨-, hnew⟩
  · rw [hnew] at hl
    obtain ⟨before, hbefore, rfl⟩ := List.mem_map.mp hl
    unfold replaceLine
    split_ifs
    · exact hport
    · exact hread before hbefore
  · rw [hnew] at hl
    rcases List.mem_append.mp hl with hl | hl
    · exact hread l hl
    · rwa [List.mem_singleton.mp hl]

theorem cr_notMem_written (file : Dotenv) (port : Int) : '\r' ∉ (newLines port file.read).flatten := by
  intro hmem
  obtain ⟨l, hl, hin⟩ := List.mem_flatten.mp hmem
  exact cr_notMem_newLines file port l hl hin

theorem updateDotenvPort_success {writing : Writing} (h : updateDotenvPort file port writing = (some true, new)) :
    new = .text (newLines port file.read).flatten := by
  have hwrite : ∀ {lines}, ((some (writeLines file lines writing).1, (writeLines file lines writing).2) :
      Option Bool × Dotenv) = (some true, new) → new = .text lines.flatten := by
    intro lines h
    rcases writing with _ | _ | written
    · exact (Prod.mk.inj h).2.symm
    · cases h
    · cases h
  rcases file with _ | _ | content
  · exact hwrite h
  · cases h
  · exact hwrite h

theorem fileLines_read (h : AreLines (newLines port file.read)) :
    Dotenv.read (.text (newLines port file.read).flatten) = newLines port file.read := by
  rw [read_text, universal_eq_self (cr_notMem_written file port), fileLines_flatten h]

/-! ## The condition -/

theorem read_cases (file : Dotenv) :
    ((∀ content, file = .text content → Complete content) ∧ ∀ l ∈ file.read, Ended l) ∨
    ((¬ ∀ content, file = .text content → Complete content) ∧
      ∃ front last, file.read = front ++ [last] ∧ (∀ l ∈ front, Ended l) ∧ Open last) := by
  rcases file with _ | _ | content
  · simp [Dotenv.read]
  · simp [Dotenv.read]
  · have hcases := fileLines_complete (cr_notMem_universal content)
    rw [complete_universal] at hcases
    simpa [Dotenv.read] using hcases

theorem gives_envLines : (∃ line ∈ envLines file, Gives publicPort line) ↔ ∃ line ∈ file.read, StartsPort line := by
  rw [envLines_eq]
  simp only [List.mem_map, exists_exists_and_eq_and, gives_chomp]

theorem areLines_newLines (port : Int) (h : file.Rewritable) : AreLines (newLines port file.read) := by
  unfold Dotenv.Rewritable at h
  rw [gives_envLines] at h
  rcases newLines_cases port file.read with ⟨-, hnew⟩ | ⟨hnone, hnew⟩
  · rw [hnew]
    have hread : AreLines file.read := by
      rcases read_cases file with ⟨-, hall⟩ | ⟨-, front, last, hsplit, hfront, hopen⟩
      · exact areLines_of_ended hall
      · rw [hsplit]
        exact areLines_concat_open hfront hopen
    refine hread.map fun line => ?_
    unfold replaceLine
    split_ifs
    · exact .inr (ended_portLine port)
    · exact .inl rfl
  · rw [hnew]
    have hcomplete := h.resolve_left fun ⟨line, hline, hport⟩ => hnone line hline hport
    rcases read_cases file with ⟨-, hall⟩ | ⟨hopen, -⟩
    · refine areLines_of_ended fun l hl => ?_
      rcases List.mem_append.mp hl with hl | hl
      · exact hall l hl
      · rw [List.mem_singleton.mp hl]
        exact ended_portLine port
    · exact absurd hcomplete hopen

theorem notPort_of_not_rewritable (h : ¬ file.Rewritable) : ∀ line ∈ file.read, ¬ StartsPort line := by
  intro line hline hport
  exact h (.inl (gives_envLines.mpr ⟨line, hline, hport⟩))

theorem envLines_not_rewritable (port : Int) (h : ¬ file.Rewritable) :
    ∃ front last, file.read = front ++ [last] ∧ last ≠ [] ∧
      Dotenv.read (.text (newLines port file.read).flatten) = front ++ [last ++ portLine port] := by
  have hnew := newLines_absent port (fun ⟨line, hline, hport⟩ => notPort_of_not_rewritable h line hline hport)
  rcases read_cases file with ⟨hcomplete, -⟩ | ⟨-, front, last, hsplit, hfront, hopen⟩
  · exact absurd (.inr hcomplete) h
  · refine ⟨front, last, hsplit, hopen.1, ?_⟩
    have hjoined : AreLines (front ++ [last ++ portLine port]) := by
      refine areLines_of_ended fun l hl => ?_
      rcases List.mem_append.mp hl with hl | hl
      · exact hfront l hl
      · rw [List.mem_singleton.mp hl]
        refine ⟨last ++ ("PUBLIC_PORT=".toList ++ Text.intText port), ?_, ?_⟩
        · rw [List.mem_append, not_or]
          exact ⟨hopen.2, portLine_body port⟩
        · unfold portLine
          simp only [List.append_assoc]
    have hflatten : (newLines port file.read).flatten = (front ++ [last ++ portLine port]).flatten := by
      rw [hnew, hsplit]
      simp
    rw [read_text, universal_eq_self (cr_notMem_written file port), hflatten, fileLines_flatten hjoined]

/-! ## What is read afterwards -/

theorem portLine_mem_newLines (port : Int) (old : List (List Char)) : portLine port ∈ newLines port old := by
  rcases newLines_cases port old with ⟨⟨line, hline, hport⟩, hnew⟩ | ⟨-, hnew⟩
  · rw [hnew]
    exact List.mem_map.mpr ⟨line, hline, if_pos hport⟩
  · rw [hnew]
    simp

theorem mem_newLines (h : line ∈ newLines port old) : line = portLine port ∨ ¬ StartsPort line := by
  rcases newLines_cases port old with ⟨-, hnew⟩ | ⟨hnone, hnew⟩
  · rw [hnew] at h
    obtain ⟨before, hbefore, rfl⟩ := List.mem_map.mp h
    unfold replaceLine
    split_ifs with hport
    · exact .inl rfl
    · exact .inr hport
  · rw [hnew] at h
    rcases List.mem_append.mp h with h | h
    · exact .inr (hnone line h)
    · exact .inl (List.mem_singleton.mp h)

theorem others_map (port : Int) (old : List (List Char)) :
    ((old.map (replaceLine port)).filter fun line => ¬ StartsPort line) = old.filter fun line => ¬ StartsPort line := by
  induction old with
  | nil => rfl
  | cons line rest ih =>
    rw [List.map_cons, List.filter_cons, List.filter_cons, ih]
    by_cases hport : StartsPort line
    · have hline : replaceLine port line = portLine port := if_pos hport
      simp [hline, hport, startsPort_portLine]
    · have hline : replaceLine port line = line := if_neg hport
      simp [hline, hport]

theorem others_newLines (port : Int) (old : List (List Char)) :
    ((newLines port old).filter fun line => ¬ StartsPort line) = old.filter fun line => ¬ StartsPort line := by
  rcases newLines_cases port old with ⟨-, hnew⟩ | ⟨-, hnew⟩
  · rw [hnew, others_map]
  · rw [hnew, List.filter_append]
    simp [startsPort_portLine]

theorem filter_chomp (ls : List (List Char)) :
    ((ls.map chomp).filter fun line => ¬ Gives publicPort line) =
      (ls.filter fun line => ¬ StartsPort line).map chomp := by
  rw [List.filter_map]
  congr 2
  funext line
  simp [gives_chomp]

theorem portSet_newLines (port : Int) (h : file.Rewritable) :
    PortSet file port (.text (newLines port file.read).flatten) := by
  have hlines := envLines_eq (.text (newLines port file.read).flatten)
  rw [fileLines_read (areLines_newLines port h)] at hlines
  refine ⟨⟨chomp (portLine port), ?_, gives_portLine port⟩, ?_, ?_⟩
  · rw [hlines]
    exact List.mem_map_of_mem (portLine_mem_newLines port file.read)
  · intro line hline value hvalue
    rw [hlines] at hline
    obtain ⟨written, hwritten, rfl⟩ := List.mem_map.mp hline
    rcases mem_newLines hwritten with rfl | hother
    · rw [keyValue_portLine] at hvalue
      exact (Prod.mk.inj (Option.some.inj hvalue)).2.symm
    · exact absurd (gives_chomp.mp ⟨value, hvalue⟩) hother
  · rw [hlines, envLines_eq file, filter_chomp, filter_chomp, others_newLines]

theorem newLines_twice (port : Int) (old : List (List Char)) : newLines port (newLines port old) = newLines port old := by
  have hagain := newLines_found port ⟨_, portLine_mem_newLines port old, startsPort_portLine port⟩
  rw [hagain]
  refine (List.map_congr_left fun line hline => ?_).trans (List.map_id' _)
  unfold replaceLine
  rcases mem_newLines hline with rfl | hother
  · rw [if_pos (startsPort_portLine port)]
  · rw [if_neg hother]

theorem not_portSet (port : Int) (h : ¬ file.Rewritable) :
    ¬ PortSet file port (.text (newLines port file.read).flatten) := by
  rintro ⟨⟨line, hline, hgives⟩, -, hothers⟩
  obtain ⟨front, last, hsplit, -, hread⟩ := envLines_not_rewritable port h
  rw [envLines_eq, hread] at hline hothers
  have hold : (envLines file).filter (fun line => ¬ Gives publicPort line) = envLines file := by
    rw [envLines_eq, filter_chomp]
    refine congrArg _ (List.filter_eq_self.mpr fun l hl => ?_)
    simpa using notPort_of_not_rewritable h l hl
  have hlength : (((front ++ [last ++ portLine port]).map chomp).filter fun line => ¬ Gives publicPort line).length =
      ((front ++ [last ++ portLine port]).map chomp).length := by
    rw [hothers, hold, envLines_eq, hsplit]
    simp
  have hnone := List.length_filter_eq_length_iff.mp hlength line hline
  simp [hgives] at hnone

theorem updateDotenvPort_done (port : Int) (h : file ≠ .unreadable) :
    updateDotenvPort file port .done = (some true, .text (newLines port file.read).flatten) := by
  rcases file with _ | _ | content
  · rfl
  · exact absurd rfl h
  · rfl

/-- A successful update gives the port, keeps the other lines and is the same twice, exactly where the file has a
line for the port or its text ends a line. -/
theorem dotenv_iff (file : Dotenv) (port : Int) :
    (∀ writing new, updateDotenvPort file port writing = (some true, new) →
      PortSet file port new ∧
        ∀ writing again, updateDotenvPort new port writing = (some true, again) → again = new) ↔
      file.Rewritable := by
  constructor
  · intro hall
    by_contra hfile
    have hreadable : file ≠ .unreadable := by
      rintro rfl
      exact hfile (.inr fun content hcontent => by cases hcontent)
    exact not_portSet port hfile (hall .done _ (updateDotenvPort_done port hreadable)).1
  · intro hfile writing new hnew
    obtain rfl := updateDotenvPort_success hnew
    refine ⟨portSet_newLines port hfile, ?_⟩
    intro writing again hagain
    rw [updateDotenvPort_success hagain, fileLines_read (areLines_newLines port hfile), newLines_twice]

/-- A password without an end of line becomes another one, and the file does not give the port. -/
theorem password_joined :
    updateDotenvPort (.text "PUBLIC_HOST=rdp\nREDIS_PASSWORD=s3cret".toList) 8443 .done =
      (some true, .text "PUBLIC_HOST=rdp\nREDIS_PASSWORD=s3cretPUBLIC_PORT=8443\n".toList) ∧
    ¬ PortSet (.text "PUBLIC_HOST=rdp\nREDIS_PASSWORD=s3cret".toList) 8443
      (.text "PUBLIC_HOST=rdp\nREDIS_PASSWORD=s3cretPUBLIC_PORT=8443\n".toList) := by
  refine ⟨by decide, ?_⟩
  rintro ⟨hgiven, -, -⟩
  revert hgiven
  decide

/-! ## The ports of the callback -/

/-- The file after calls that are all written. -/
def written (file : Dotenv) (ports : List Int) : Dotenv :=
  ports.foldl (fun file port => (updateDotenvPort file port .done).2) file

theorem PortSet.trans {next : Dotenv} {other : Int} (h : PortSet file port new) (hnext : PortSet new other next) :
    PortSet file other next :=
  ⟨hnext.given, hnext.only, hnext.others.trans h.others⟩

theorem portSet_written (h : file.Rewritable) (hreadable : file ≠ .unreadable) {ports : List Int}
    (hlast : ports.getLast? = some port) : PortSet file port (written file ports) := by
  induction ports generalizing file with
  | nil => cases hlast
  | cons first ports ih =>
    have hdone := updateDotenvPort_done first hreadable
    have hset : PortSet file first (updateDotenvPort file first .done).2 := by
      rw [hdone]
      exact portSet_newLines first h
    rcases ports with _ | ⟨next, ports⟩
    · obtain rfl : first = port := Option.some.inj hlast
      exact hset
    · rw [List.getLast?_cons_cons] at hlast
      exact hset.trans (ih (.inl hset.given) (by rw [hdone]; simp) hlast)

/-- The port that was written last is the one that the callback remembers. -/
def LastWritten (h : Config.Hooked) : Prop := ∀ port, h.dotenvPorts.getLast? = some port → h.prevPublicPort = some port

theorem LastWritten.onProxyChange {h : Config.Hooked} (hlast : LastWritten h) (data : Config.Setting Json) :
    LastWritten (h.onProxyChange data) := by
  unfold Config.Hooked.onProxyChange
  rcases Config.newHost data with _ | host
  · exact hlast
  · dsimp only
    rcases (Config.newPort data).bind Config.asInt with _ | port
    · exact hlast
    · intro written hwritten
      unfold Config.Hooked.portChanged Config.Hooked.hostChanged at hwritten ⊢
      dsimp only at hwritten ⊢
      rcases hprev : h.prevPublicPort with _ | prev
      · rw [hprev] at hwritten
        have hnever := hlast written hwritten
        rw [hprev] at hnever
        cases hnever
      · rw [hprev] at hwritten
        dsimp only at hwritten
        split_ifs at hwritten with hchanged
        · rw [List.getLast?_concat] at hwritten
          exact hwritten
        · have hsame := hlast written hwritten
          rw [hprev] at hsame
          rw [← hsame, not_not.mp hchanged]

/-- Once a change has been written, the file gives the port of the settings as they were last seen. -/
theorem dotenv_follows (h : file.Rewritable) (hreadable : file ≠ .unreadable) {start : Config.Hooked}
    (hstart : start.dotenvPorts = []) (changes : List (Config.Setting Json)) :
    let hooked := changes.foldl Config.Hooked.onProxyChange start
    hooked.dotenvPorts ≠ [] →
      ∃ port, hooked.prevPublicPort = some port ∧ PortSet file port (written file hooked.dotenvPorts) := by
  intro hooked hne
  have hrun : ∀ (changes : List (Config.Setting Json)) (h : Config.Hooked), LastWritten h →
      LastWritten (changes.foldl Config.Hooked.onProxyChange h) := by
    intro changes
    induction changes with
    | nil => exact fun _ h => h
    | cons data rest ih => exact fun h hlast => ih _ (hlast.onProxyChange data)
  have hlast : LastWritten hooked := hrun changes start (by simp [LastWritten, hstart])
  have hport := List.getLast?_eq_some_getLast hne
  exact ⟨_, hlast _ hport, portSet_written h hreadable hport⟩

end RdpProxy.Admin
