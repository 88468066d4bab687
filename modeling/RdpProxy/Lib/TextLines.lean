import RdpProxy.Lib.Utf8

/-!
# The lines of a text, and a reader of lines

`str.splitlines`, which knows more line ends than `'\n'`, and a reader of bytes that takes lines up
to the first empty one.
-/

open Words

namespace Text

/-! ## `str.splitlines` -/

def isLineBreak (c : Char) : Bool :=
  let n := c.toNat
  (0x0A ≤ n && n ≤ 0x0D) || (0x1C ≤ n && n ≤ 0x1E) || n == 0x85 || n == 0x2028 || n == 0x2029

/-- `str.splitlines`: the line ends are not part of the lines, and `'\r'` with `'\n'` is one of them. -/
def splitlines : List Char → List (List Char)
  | [] => []
  | '\r' :: '\n' :: rest => [] :: splitlines rest
  | c :: rest =>
    if isLineBreak c then [] :: splitlines rest
    else
      match splitlines rest with
      | [] => [[c]]
      | line :: others => (c :: line) :: others

/-- No character of the line ends one. -/
def OneLine (line : List Char) : Prop := ∀ c ∈ line, isLineBreak c = false

theorem splitlines_cons_break {c : Char} (hc : isLineBreak c = true) (hcr : c ≠ '\r') (rest : List Char) :
    splitlines (c :: rest) = [] :: splitlines rest := by
  rw [splitlines.eq_3 _ _ (fun _ h _ => hcr h), if_pos hc]

theorem splitlines_cons {c : Char} (hc : isLineBreak c = false) (rest : List Char) :
    splitlines (c :: rest) =
      match splitlines rest with
      | [] => [[c]]
      | line :: others => (c :: line) :: others := by
  have hcr : c ≠ '\r' := by
    rintro rfl
    cases hc
  rw [splitlines.eq_3 _ _ (fun _ h _ => hcr h), if_neg (by simp [hc])]

theorem oneLine_of_mem_splitlines {s line : List Char} (h : line ∈ splitlines s) : OneLine line := by
  have hnil : OneLine [] := fun _ hc => absurd hc List.not_mem_nil
  induction s using splitlines.induct generalizing line with
  | case1 => cases h
  | case2 rest ih =>
    rw [splitlines] at h
    rcases List.mem_cons.mp h with rfl | h
    · exact hnil
    · exact ih h
  | case3 c rest hne hbreak ih =>
    rw [splitlines.eq_3 _ _ hne, if_pos hbreak] at h
    rcases List.mem_cons.mp h with rfl | h
    · exact hnil
    · exact ih h
  | case4 c rest hne hplain hrest ih =>
    rw [splitlines.eq_3 _ _ hne, if_neg hplain, hrest, List.mem_singleton] at h
    intro d hd
    rw [h, List.mem_singleton] at hd
    rw [hd]
    exact Bool.eq_false_iff.mpr hplain
  | case5 c rest hne hplain first others hrest ih =>
    rw [splitlines.eq_3 _ _ hne, if_neg hplain, hrest] at h
    rcases List.mem_cons.mp h with rfl | h
    · intro d hd
      rcases List.mem_cons.mp hd with rfl | hd
      · exact Bool.eq_false_iff.mpr hplain
      · exact ih (by rw [hrest]; exact List.mem_cons_self) d hd
    · exact ih (by rw [hrest]; exact List.mem_cons_of_mem _ h)

theorem splitlines_line_append {line : List Char} (h : OneLine line) (rest : List Char) :
    splitlines (line ++ '\n' :: rest) = line :: splitlines rest := by
  induction line with
  | nil => exact splitlines_cons_break (by decide) (by decide) rest
  | cons c line ih =>
    rw [List.cons_append, splitlines_cons (h c List.mem_cons_self), ih fun d hd => h d (List.mem_cons_of_mem _ hd)]

/-- Lines with their ends. -/
def ended (ls : List (List Char)) : List Char := ls.flatMap (· ++ ['\n'])

theorem joinLines_eq_ended {ls : List (List Char)} (hne : ls ≠ []) : joinLines ls = ended ls := by
  unfold joinLines ended
  induction ls with
  | nil => exact absurd rfl hne
  | cons l ls ih =>
    rcases ls with _ | ⟨l', ls⟩
    · simp
    · rw [List.intercalate_cons_cons, List.append_assoc, List.append_assoc, ih (by simp)]
      rw [List.flatMap_cons (x := l), List.append_assoc]

theorem splitlines_ended {ls : List (List Char)} (h : ∀ l ∈ ls, OneLine l) : splitlines (ended ls) = ls := by
  induction ls with
  | nil => rfl
  | cons l ls ih =>
    have hjoin : ended (l :: ls) = l ++ '\n' :: ended ls := by simp [ended]
    rw [hjoin, splitlines_line_append (h l List.mem_cons_self), ih fun k hk => h k (List.mem_cons_of_mem _ hk)]

theorem OneLine.newline_notMem {line : List Char} (h : OneLine line) : '\n' ∉ line := by
  intro hmem
  have hbreak := h '\n' hmem
  revert hbreak
  decide

end Text

/-! ## Lines up to an empty one -/

namespace Heredoc

def lineFeed : UInt8 := 10

/-- The lines before the first empty one and what comes behind it, with the part of the current line already read;
nothing where no empty line comes. -/
def readFrom : Bytes → Bytes → Option (List Bytes × Bytes)
  | _, [] => none
  | line, b :: rest =>
    if b = lineFeed then
      if line = [] then some ([], rest) else (readFrom [] rest).map fun read => (line :: read.1, read.2)
    else readFrom (line ++ [b]) rest

def read (payload : Bytes) : Option (List Bytes × Bytes) := readFrom [] payload

theorem readFrom_append {line : Bytes} (h : lineFeed ∉ line) (begun rest : Bytes) :
    readFrom begun (line ++ rest) = readFrom (begun ++ line) rest := by
  induction line generalizing begun with
  | nil => rw [List.nil_append, List.append_nil]
  | cons b line ih =>
    simp only [List.mem_cons, not_or] at h
    rw [List.cons_append, readFrom, if_neg (Ne.symm h.1), ih h.2, List.append_assoc]
    rfl

theorem read_line {line : Bytes} (h : lineFeed ∉ line) (hne : line ≠ []) (rest : Bytes) :
    read (line ++ lineFeed :: rest) = (read rest).map fun read => (line :: read.1, read.2) := by
  unfold read
  rw [readFrom_append h, List.nil_append, readFrom, if_pos rfl, if_neg hne]

theorem read_lines {ls : List Bytes} (h : ∀ l ∈ ls, l ≠ [] ∧ lineFeed ∉ l) (rest : Bytes) :
    read (ls.flatMap (· ++ [lineFeed]) ++ lineFeed :: rest) = some (ls, rest) := by
  induction ls with
  | nil => rfl
  | cons l ls ih =>
    obtain ⟨hne, hplain⟩ := h l List.mem_cons_self
    rw [List.flatMap_cons, List.append_assoc, List.append_assoc, List.singleton_append, read_line hplain hne,
      ih fun k hk => h k (List.mem_cons_of_mem _ hk)]
    rfl

theorem lineFeed_notMem_utf8 {s : List Char} (h : '\n' ∉ s) : lineFeed ∉ Text.utf8 s := by
  rw [Text.mem_utf8_ascii (by decide)]
  rintro ⟨c, hc, heq⟩
  have : c = '\n' := Char.toNat_inj.mp heq
  exact h (this ▸ hc)

end Heredoc
