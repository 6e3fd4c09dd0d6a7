/-
# Admin commands: `Skeleton::ProcessAdminCmdMessage`

An admin message has one line for each command: the command, and after blanks its options.
`ProcessAdminCmdMessage` cuts the message into lines and calls the function that
`RegisterAdminCommand` put into the map for the command.  Three things go wrong on the way:

* the end of a line is sought with `find_first_of(" \n", pos1)`, so a line also ends at its first
  space;
* `substr(pos1, pos2)` takes `pos2` characters, not those up to `pos2`, so every line but the first
  runs on into what comes after it;
* a line without a blank leaves `cmd` empty, so a command without options is never called.

`message_iff`: a message is done right, whatever is registered, exactly when there is no space in
it, its first line is empty or has a tab, and all other lines are empty.  With one map other
messages may be done right as well, such as one whose first line is a command that fails
(`message_stopped`).  The loop always ends: it is a total function here, and `pos1` grows in every
turn.

`admin_cmd_map_.find(cmd, func)` is read as `find(cmd)`.
-/
import Kknf.Lib.StdMap
import Kknf.Lib.StdString
import Kknf.LibEvent.NetFrame

namespace Kknf.LibEvent.AdminCommands

open Kknf.StdString
open NetFrame (DataFormat)

/-! ## 1. The functions -/

abbrev Str := List Char

/-- A call of an admin function: the command and the options. -/
abbrev AdminCall := Str × Str

/-- An `AdminCmdFunc`: what it returns may depend on the calls before. -/
abbrev AdminCmdFunc := List AdminCall → AdminCall → Int

abbrev AdminCmdMap := StdMap Str AdminCmdFunc

/-- `RegisterAdminCommand`; `none` is a null pointer. -/
def registerAdminCommand (m : AdminCmdMap) (cmd : Str) (func : Option AdminCmdFunc) :
    AdminCmdMap × Int :=
  match func with
  | none => (m, -1)
  | some func =>
    match m.find cmd with
    | some _ => (m, -2)
    | none => (m.set cmd func, 0)

/-- `' '` or `'\t'`. -/
def isBlank (c : Char) : Bool := c == ' ' || c == '\t'

/-- What `pos2` is a position of: `' '` or `'\n'`. -/
def isDelim (c : Char) : Bool := c == ' ' || c == '\n'

/-- `cmd` and `options` of a `cmd_options_line`. -/
def extract (line : Str) : AdminCall :=
  let pos := findFirst isBlank line 0
  let cmd := pos.elim [] fun pos => substr line 0 pos
  -- from `npos` on, nothing is found
  let pos := pos.bind fun pos => findFirst (fun c => !isBlank c) line pos
  (cmd, pos.elim [] fun pos => line.drop pos)

/-- The loop of `ProcessAdminCmdMessage`, with the calls made so far: the calls and the result. -/
def processLoop (m : AdminCmdMap) (lines : Str) (pos1 : Nat) (calls : List AdminCall) :
    List AdminCall × Int :=
  match _h : findFirst isDelim lines pos1 with
  | none => (calls, 0)
  | some pos2 =>
    let call := extract (substr lines pos1 pos2)
    match m.find call.1 with
    | some func =>
      if func calls call < 0 then (calls ++ [call], -2)
      else if pos2 + 1 = lines.length then (calls ++ [call], 0)
      else processLoop m lines (pos2 + 1) (calls ++ [call])
    | none =>
      if pos2 + 1 = lines.length then (calls, 0)
      else processLoop m lines (pos2 + 1) calls
termination_by lines.length - pos1
decreasing_by all_goals have := findFirst_bounds _h; omega

/-- `ProcessAdminCmdMessage`: the calls and the result. -/
def processAdminCmdMessage (m : AdminCmdMap) (dataFormat : DataFormat) (data : Str) :
    List AdminCall × Int :=
  if dataFormat ≠ .line then ([], -1) else processLoop m data 0 []

/-! ## 2. What they should do -/

/-- A line of a message. -/
structure Line where
  cmd : Str
  blanks : Str
  options : Str
  cmd_ok : ∀ c ∈ cmd, isBlank c = false ∧ c ≠ '\n'
  blanks_ok : ∀ c ∈ blanks, isBlank c = true
  options_ok : '\n' ∉ options
  options_head : ∀ c, options.head? = some c → isBlank c = false
  bare : blanks = [] → options = []

def Line.text (l : Line) : Str := l.cmd ++ l.blanks ++ l.options

def Line.call (l : Line) : AdminCall := (l.cmd, l.options)

/-- The lines of a message, each with a newline at its end. -/
def message (ls : List Line) : Str := ls.flatMap fun l => l.text ++ ['\n']

/-- Call the functions that are registered, in order, up to the first one that fails. -/
def dispatch (m : AdminCmdMap) (calls : List AdminCall) : List AdminCall → List AdminCall × Int
  | [] => (calls, 0)
  | call :: rest =>
    match m.find call.1 with
    | some func =>
      if func calls call < 0 then (calls ++ [call], -2) else dispatch m (calls ++ [call]) rest
    | none => dispatch m calls rest

/-- The message is done right, whatever is registered. -/
def DoneRight (ls : List Line) : Prop :=
  ∀ m : AdminCmdMap, processAdminCmdMessage m .line (message ls) = dispatch m [] (ls.map Line.call)

/-- There is no space in the message, its first line is empty or has a tab, and all other lines are
empty. -/
def Plain : List Line → Prop
  | [] => True
  | l :: ls => ' ' ∉ l.text ∧ (l.text = [] ∨ '\t' ∈ l.text) ∧ ∀ l' ∈ ls, l'.text = []

/-! ## 3. The calls that the loop tries -/

/-- What the loop extracts, turn by turn, when nothing fails. -/
def pieces (lines : Str) (pos1 : Nat) : List AdminCall :=
  match _h : findFirst isDelim lines pos1 with
  | none => []
  | some pos2 =>
    extract (substr lines pos1 pos2) ::
      if pos2 + 1 = lines.length then [] else pieces lines (pos2 + 1)
termination_by lines.length - pos1
decreasing_by have := findFirst_bounds _h; omega

theorem pieces_of_none {lines : Str} {pos1 : Nat} (h : findFirst isDelim lines pos1 = none) :
    pieces lines pos1 = [] := by
  rw [pieces]
  split
  · rfl
  · rename_i hsome
    rw [h] at hsome
    cases hsome

theorem pieces_of_some {lines : Str} {pos1 pos2 : Nat}
    (h : findFirst isDelim lines pos1 = some pos2) :
    pieces lines pos1 = extract (substr lines pos1 pos2) ::
      if pos2 + 1 = lines.length then [] else pieces lines (pos2 + 1) := by
  rw [pieces]
  split
  · rename_i hnone
    rw [h] at hnone
    cases hnone
  · rename_i hsome
    rw [h] at hsome
    cases hsome
    rfl

/-- **The loop calls what is registered of the pieces**, in order, up to the first failure. -/
theorem processLoop_eq (m : AdminCmdMap) (lines : Str) (pos1 : Nat) (calls : List AdminCall) :
    processLoop m lines pos1 calls = dispatch m calls (pieces lines pos1) := by
  induction pos1 using pieces.induct lines generalizing calls with
  | case1 pos1 h =>
    rw [pieces_of_none h, processLoop]
    split
    · rfl
    · rename_i hsome
      rw [h] at hsome
      cases hsome
  | case2 pos1 pos2 h ih =>
    rw [pieces_of_some h, processLoop]
    split
    · rename_i hnone
      rw [h] at hnone
      cases hnone
    · rename_i hsome
      rw [h] at hsome
      cases hsome
      by_cases hlast : pos2 + 1 = lines.length
      · simp only [if_pos hlast, dispatch]
      · simp only [if_neg hlast, dispatch, ih]

theorem processAdminCmdMessage_line (m : AdminCmdMap) (data : Str) :
    processAdminCmdMessage m .line data = dispatch m [] (pieces data 0) := by
  rw [processAdminCmdMessage, if_neg (by decide), processLoop_eq]

/-! ## 4. One piece -/

/-- Nothing is extracted from a line without a blank. -/
theorem extract_of_no_blank {line : Str} (h : ∀ c ∈ line, isBlank c = false) :
    extract line = ([], []) := by
  have hfind : findFirst isBlank ([] ++ line) ([] : Str).length = none := findFirst_eq_none h
  rw [List.nil_append, List.length_nil] at hfind
  rw [extract, hfind]
  rfl

/-- Up to the first blank is the command, and after the blanks are the options. -/
theorem extract_of_blank {a r : Str} {b : Char} (ha : ∀ c ∈ a, isBlank c = false)
    (hb : isBlank b = true) : extract (a ++ b :: r) = (a, r.dropWhile isBlank) := by
  have hfind : findFirst isBlank (a ++ b :: r) 0 = some a.length := by
    have hnil : findFirst isBlank ([] ++ (a ++ b :: r)) ([] : Str).length = _ :=
      findFirst_append ha hb
    rwa [List.nil_append, List.length_nil, Nat.zero_add] at hnil
  have hcmd : substr (a ++ b :: r) 0 a.length = a := List.take_left
  have hoptions := drop_findFirst (fun c => !isBlank c) a (b :: r)
  simp only [Bool.not_not, List.dropWhile_cons, hb, if_true] at hoptions
  rw [extract, hfind]
  simp only [Option.elim_some, Option.bind_some, hcmd, hoptions]

/-- A newline in a line with a blank is extracted with it. -/
theorem extract_newline {line : Str} (h : '\n' ∈ line) : (∀ c ∈ line, isBlank c = false) ∨
    '\n' ∈ (extract line).1 ∨ '\n' ∈ (extract line).2 := by
  rcases split_first isBlank line with hnone | ⟨a, b, r, rfl, ha, hb⟩
  · exact Or.inl hnone
  · rw [extract_of_blank ha hb]
    rcases List.mem_append.mp h with hmem | hmem
    · exact Or.inr (Or.inl hmem)
    rcases List.mem_cons.mp hmem with rfl | hmem
    · cases hb
    · refine Or.inr (Or.inr ?_)
      -- the newline is not a blank, so it is not dropped
      rw [← List.takeWhile_append_dropWhile (p := isBlank) (l := r)] at hmem
      rcases List.mem_append.mp hmem with htake | hdrop
      · have hblank : isBlank '\n' = true := List.mem_takeWhile_imp htake
        cases hblank
      · exact hdrop

namespace Line

variable (l : Line)

theorem no_newline : '\n' ∉ l.text := by
  intro h
  rcases List.mem_append.mp h with h | h
  · rcases List.mem_append.mp h with h | h
    · exact (l.cmd_ok _ h).2 rfl
    · cases l.blanks_ok _ h
  · exact l.options_ok h

/-- **A line with a blank is read right by itself.** -/
theorem extract_text (h : l.blanks ≠ []) : extract l.text = l.call := by
  obtain ⟨b, bs, hbs⟩ := List.exists_cons_of_ne_nil h
  have hblanks := l.blanks_ok
  rw [hbs] at hblanks
  have htext : l.text = l.cmd ++ b :: (bs ++ l.options) := by
    rw [text, hbs, List.append_assoc]
    rfl
  have hdrop : (bs ++ l.options).dropWhile isBlank = l.options := by
    rw [List.dropWhile_append_of_pos fun c hc => hblanks c (List.mem_cons_of_mem _ hc)]
    cases hopt : l.options with
    | nil => rfl
    | cons c t =>
      have hc := l.options_head c (by rw [hopt]; rfl)
      simp [hc]
  rw [htext, extract_of_blank (fun c hc => (l.cmd_ok c hc).1) (hblanks b List.mem_cons_self), hdrop]
  rfl

/-- A line without a blank is its command. -/
theorem text_of_bare (h : l.blanks = []) : l.text = l.cmd := by
  rw [text, h, l.bare h, List.append_nil, List.append_nil]

/-- A blank of a line is a blank of `blanks`, or comes after one. -/
theorem blanks_ne_nil {c : Char} (h : c ∈ l.text) (hc : isBlank c = true) : l.blanks ≠ [] := by
  intro hbare
  rw [l.text_of_bare hbare] at h
  have := (l.cmd_ok c h).1
  rw [hc] at this
  cases this

/-- **Without a space, the first line is read right exactly when it is empty or has a tab.** -/
theorem extract_text_iff (h : ' ' ∉ l.text) :
    extract l.text = l.call ↔ l.text = [] ∨ '\t' ∈ l.text := by
  by_cases hbare : l.blanks = []
  · have hnone : ∀ c ∈ l.text, isBlank c = false := by
      rw [l.text_of_bare hbare]
      exact fun c hc => (l.cmd_ok c hc).1
    have htab : '\t' ∉ l.text := fun ht => l.blanks_ne_nil ht rfl hbare
    rw [extract_of_no_blank hnone, call, l.bare hbare, l.text_of_bare hbare]
    rw [l.text_of_bare hbare] at htab
    simp [htab, eq_comm]
  · refine iff_of_true (l.extract_text hbare) (Or.inr ?_)
    obtain ⟨b, bs, hbs⟩ := List.exists_cons_of_ne_nil hbare
    have hmem : b ∈ l.text := by simp [text, hbs]
    have hb := l.blanks_ok b (by simp [hbs])
    rcases Bool.or_eq_true_iff.mp hb with hspace | htab
    · exact absurd (eq_of_beq hspace ▸ hmem) h
    · exact eq_of_beq htab ▸ hmem

end Line

/-! ## 5. The pieces of a message -/

theorem pieces_end (pre : Str) : pieces (pre ++ []) pre.length = [] :=
  pieces_of_none (findFirst_eq_none (by simp))

/-- One turn: what follows the delimiter is left for the next turns. -/
theorem pieces_append {pre seg rest : Str} {c : Char} (hseg : ∀ x ∈ seg, isDelim x = false)
    (hc : isDelim c = true) : pieces (pre ++ (seg ++ c :: rest)) pre.length =
      extract ((seg ++ c :: rest).take (pre.length + seg.length)) ::
        pieces ((pre ++ (seg ++ [c])) ++ rest) (pre ++ (seg ++ [c])).length := by
  have hsplit : pre ++ (seg ++ c :: rest) = (pre ++ (seg ++ [c])) ++ rest := by simp
  have hlen : pre.length + seg.length + 1 = (pre ++ (seg ++ [c])).length := by
    simp [Nat.add_assoc]
  rw [pieces_of_some (findFirst_append hseg hc), substr_append, hlen, hsplit]
  split
  · -- the delimiter is the last character
    rename_i hlast
    have hrest : rest = [] := by
      simp only [List.length_append] at hlast
      exact List.eq_nil_of_length_eq_zero (by omega)
    rw [hrest, pieces_end]
  · rfl

/-- There are as many pieces as delimiters. -/
theorem length_pieces (pre rest : Str) :
    (pieces (pre ++ rest) pre.length).length = rest.countP isDelim := by
  induction h : rest.length using Nat.strong_induction_on generalizing pre rest with
  | _ n ih =>
    rcases split_first isDelim rest with hnone | ⟨seg, c, rest', rfl, hseg, hc⟩
    · rw [pieces_of_none (findFirst_eq_none hnone)]
      exact (List.countP_eq_zero.mpr fun x hx => by simp [hnone x hx]).symm
    · have hlt : rest'.length < n := by
        rw [← h, List.length_append, List.length_cons]
        omega
      have hzero : seg.countP isDelim = 0 := List.countP_eq_zero.mpr fun x hx => by simp [hseg x hx]
      rw [pieces_append hseg hc, List.length_cons, ih rest'.length hlt _ rest' rfl,
        List.countP_append, List.countP_cons_of_pos hc, hzero, Nat.zero_add]

theorem message_cons (l : Line) (ls : List Line) :
    message (l :: ls) = l.text ++ '\n' :: message ls := by
  rw [message, List.flatMap_cons, List.append_assoc]
  rfl

/-- A message has a delimiter for each line, and one for each space. -/
theorem countP_message (ls : List Line) : (message ls).countP isDelim =
    ls.length + (ls.map fun l => l.text.countP isDelim).sum := by
  induction ls with
  | nil => rfl
  | cons l ls ih =>
    rw [message_cons, List.countP_append, List.countP_cons_of_pos rfl, ih, List.map_cons,
      List.sum_cons, List.length_cons]
    omega

/-- A line has no delimiter exactly when it has no space. -/
theorem Line.not_delim_iff (l : Line) : (∀ c ∈ l.text, isDelim c = false) ↔ ' ' ∉ l.text := by
  constructor
  · intro h hspace
    cases h ' ' hspace
  · intro h c hc
    have hspace : c ≠ ' ' := by
      rintro rfl
      exact h hc
    have hnewline : c ≠ '\n' := by
      rintro rfl
      exact l.no_newline hc
    simp [isDelim, hspace, hnewline]

/-- **A line that is not the first is read right only if it is empty**, since what is read of it
goes beyond its end. -/
theorem text_eq_nil {l : Line} {rest : Str} {n : Nat} (hn : 0 < n)
    (h : extract ((l.text ++ '\n' :: rest).take (n + l.text.length)) = l.call) : l.text = [] := by
  obtain ⟨k, rfl⟩ := Nat.exists_eq_add_of_lt hn
  have htake : (l.text ++ '\n' :: rest).take (0 + k + 1 + l.text.length) =
      l.text ++ '\n' :: rest.take k := by
    rw [Nat.add_comm, List.take_length_add_append, Nat.zero_add, List.take_succ_cons]
  rw [htake] at h
  have hmem : '\n' ∈ l.text ++ '\n' :: rest.take k := by simp
  rcases extract_newline hmem with hnone | hcmd | hoptions
  · have hbare : l.blanks = [] := by
      by_contra hne
      obtain ⟨b, bs, hbs⟩ := List.exists_cons_of_ne_nil hne
      have hb := l.blanks_ok b (by simp [hbs])
      rw [hnone b (by simp [Line.text, hbs])] at hb
      cases hb
    rw [extract_of_no_blank hnone] at h
    rw [l.text_of_bare hbare]
    exact (Prod.mk.inj h).1.symm
  · rw [h] at hcmd
    exact absurd rfl (l.cmd_ok _ hcmd).2
  · rw [h] at hoptions
    exact absurd hoptions l.options_ok

/-- An empty line has no command and no options. -/
theorem Line.call_of_nil {l : Line} (h : l.text = []) : l.call = ([], []) := by
  obtain ⟨hleft, hoptions⟩ := List.append_eq_nil_iff.mp h
  rw [call, (List.append_eq_nil_iff.mp hleft).1, hoptions]

/-- Empty lines make a message of newlines. -/
theorem no_blank_of_nil {ls : List Line} (h : ∀ l ∈ ls, l.text = []) :
    ∀ c ∈ message ls, isBlank c = false := by
  intro c hc
  obtain ⟨l, hl, hcl⟩ := List.mem_flatMap.mp hc
  rw [h l hl, List.nil_append, List.mem_singleton] at hcl
  rw [hcl]
  rfl

/-- **Lines that are not the first are read right exactly when they are all empty.** -/
theorem pieces_later {pre : Str} (hpre : pre ≠ []) {ls : List Line}
    (hspace : ∀ l ∈ ls, ' ' ∉ l.text) :
    pieces (pre ++ message ls) pre.length = ls.map Line.call ↔ ∀ l ∈ ls, l.text = [] := by
  induction ls generalizing pre with
  | nil => exact iff_of_true (pieces_end pre) (by simp)
  | cons l ls ih =>
    obtain ⟨hl, hls⟩ := List.forall_mem_cons.mp hspace
    have hpos : 0 < pre.length := List.length_pos_of_ne_nil hpre
    have hne : pre ++ (l.text ++ ['\n']) ≠ [] := by simp
    have hih := ih hne hls
    rw [message_cons, pieces_append (l.not_delim_iff.mpr hl) rfl, List.map_cons,
      List.cons.injEq, hih,
      List.forall_mem_cons]
    constructor
    · rintro ⟨hfirst, hrest⟩
      exact ⟨text_eq_nil hpos hfirst, hrest⟩
    · rintro ⟨hfirst, hrest⟩
      refine ⟨?_, hrest⟩
      rw [Line.call_of_nil hfirst, hfirst, List.nil_append]
      refine extract_of_no_blank fun c hc => ?_
      rcases List.mem_cons.mp (List.mem_of_mem_take hc) with rfl | hmem
      · rfl
      · exact no_blank_of_nil hrest c hmem

/-- **The pieces of a message are its lines exactly when it is plain.** -/
theorem pieces_message_iff (ls : List Line) :
    pieces (message ls) 0 = ls.map Line.call ↔ Plain ls := by
  cases ls with
  | nil => exact iff_of_true (pieces_end []) trivial
  | cons l ls =>
    have hturn : (∀ l' ∈ l :: ls, ' ' ∉ l'.text) →
        (pieces (message (l :: ls)) 0 = (l :: ls).map Line.call ↔
          (l.text = [] ∨ '\t' ∈ l.text) ∧ ∀ l' ∈ ls, l'.text = []) := by
      intro hspace
      obtain ⟨hl, hls⟩ := List.forall_mem_cons.mp hspace
      have happ : pieces ([] ++ (l.text ++ '\n' :: message ls)) ([] : Str).length = _ :=
        pieces_append (l.not_delim_iff.mpr hl) rfl
      have hne : l.text ++ ['\n'] ≠ [] := by simp
      have hlater := pieces_later hne hls
      rw [List.nil_append, List.nil_append, List.length_nil, Nat.zero_add, List.take_left] at happ
      rw [message_cons, happ, List.map_cons, List.cons.injEq, hlater, l.extract_text_iff hl]
    constructor
    · intro h
      -- there are no more pieces than lines, so there is no space
      have hspace : ∀ l' ∈ l :: ls, ' ' ∉ l'.text := by
        have hlen := length_pieces [] (message (l :: ls))
        rw [List.nil_append, List.length_nil, h, List.length_map, countP_message] at hlen
        intro l' hl'
        have hzero := List.sum_eq_zero_iff_forall_eq_nat.mp (by omega) _
          (List.mem_map_of_mem (f := fun l => l.text.countP isDelim) hl')
        exact l'.not_delim_iff.mp fun c hc => by simpa using List.countP_eq_zero.mp hzero c hc
      obtain ⟨hfirst, hrest⟩ := (hturn hspace).mp h
      exact ⟨hspace l List.mem_cons_self, hfirst, hrest⟩
    · rintro ⟨hl, hfirst, hrest⟩
      refine (hturn (List.forall_mem_cons.mpr ⟨hl, fun l' hl' => ?_⟩)).mpr ⟨hfirst, hrest⟩
      rw [hrest l' hl']
      exact List.not_mem_nil

/-! ## 6. Whatever is registered -/

/-- A map with all the commands of `names`, none of which fails. -/
def registerAll : List Str → AdminCmdMap
  | [] => StdMap.empty
  | cmd :: names => (registerAdminCommand (registerAll names) cmd (some fun _ _ => 0)).1

theorem find_registerAll (cmd : Str) (names : List Str) :
    (registerAll names).find cmd = if cmd ∈ names then some fun _ _ => 0 else none := by
  induction names generalizing cmd with
  | nil => rfl
  | cons cmd' names ih =>
    rw [registerAll, registerAdminCommand]
    cases hfind : (registerAll names).find cmd' with
    | none =>
      dsimp only
      rw [StdMap.find_set, ih]
      by_cases heq : cmd = cmd'
      · simp [heq]
      · simp [heq]
    | some func =>
      have hmem' : cmd' ∈ names := by
        by_contra hnot
        rw [ih, if_neg hnot] at hfind
        cases hfind
      have hmem : cmd ∈ cmd' :: names ↔ cmd ∈ names := by
        refine ⟨fun h => ?_, List.mem_cons_of_mem _⟩
        rcases List.mem_cons.mp h with rfl | h
        · exact hmem'
        · exact h
      dsimp only
      rw [ih]
      simp only [hmem]

/-- When all are registered and none fails, all are called. -/
theorem dispatch_registerAll {names : List Str} (calls : List AdminCall) {rest : List AdminCall}
    (h : ∀ call ∈ rest, call.1 ∈ names) :
    dispatch (registerAll names) calls rest = (calls ++ rest, 0) := by
  induction rest generalizing calls with
  | nil => rw [dispatch, List.append_nil]
  | cons call rest ih =>
    obtain ⟨hcall, hrest⟩ := List.forall_mem_cons.mp h
    rw [dispatch, find_registerAll, if_pos hcall]
    dsimp only
    rw [if_neg (lt_irrefl 0), ih _ hrest, List.append_assoc, List.singleton_append]

/-- **A message is done right, whatever is registered, exactly when it is plain.** -/
theorem message_iff (ls : List Line) : DoneRight ls ↔ Plain ls := by
  rw [← pieces_message_iff]
  constructor
  · intro h
    -- with everything registered that is called or should be
    let names := (pieces (message ls) 0 ++ ls.map Line.call).map Prod.fst
    have hall := h (registerAll names)
    rw [processAdminCmdMessage_line, dispatch_registerAll, dispatch_registerAll] at hall
    · exact (Prod.mk.inj hall).1
    · intro call hcall
      exact List.mem_map_of_mem (List.mem_append_right _ hcall)
    · intro call hcall
      exact List.mem_map_of_mem (List.mem_append_left _ hcall)
  · intro h m
    rw [processAdminCmdMessage_line, h]

/-- With one map more is done right: when the command of the first line fails it is the last one
that is called, and what is made of the other lines does not matter. -/
theorem message_stopped {m : AdminCmdMap} {l : Line} {func : AdminCmdFunc} (ls : List Line)
    (hspace : ' ' ∉ l.text) (htab : '\t' ∈ l.text) (hfind : m.find l.cmd = some func)
    (hfails : func [] l.call < 0) :
    processAdminCmdMessage m .line (message (l :: ls)) = ([l.call], -2) ∧
      dispatch m [] ((l :: ls).map Line.call) = ([l.call], -2) := by
  have hstops : ∀ rest, dispatch m [] (l.call :: rest) = ([l.call], -2) := by
    intro rest
    have hcall : m.find l.call.1 = some func := hfind
    rw [dispatch, hcall]
    dsimp only
    rw [if_pos hfails, List.nil_append]
  have happ : pieces ([] ++ (l.text ++ '\n' :: message ls)) ([] : Str).length = _ :=
    pieces_append (l.not_delim_iff.mpr hspace) rfl
  rw [List.nil_append, List.nil_append, List.length_nil, Nat.zero_add, List.take_left,
    (l.extract_text_iff hspace).mpr (Or.inr htab)] at happ
  refine ⟨?_, hstops _⟩
  rw [processAdminCmdMessage_line, message_cons, happ, hstops]

/-- The command `quit`, without options. -/
def quit : Line where
  cmd := ['q', 'u', 'i', 't']
  blanks := []
  options := []
  cmd_ok := by simp [isBlank]
  blanks_ok := by simp
  options_ok := by simp
  options_head := by simp
  bare := fun _ => rfl

/-- The map with a function for `quit`. -/
def quitMap : AdminCmdMap := (registerAdminCommand StdMap.empty quit.cmd (some fun _ _ => 0)).1

/-- `quit` is registered and is not called. -/
theorem quit_not_called :
    processAdminCmdMessage quitMap .line (message [quit]) = ([], 0) ∧
      dispatch quitMap [] ([quit].map Line.call) = ([(['q', 'u', 'i', 't'], [])], 0) ∧
      ¬ DoneRight [quit] := by
  have hpieces : pieces (message [quit]) 0 = [([], [])] := by
    have happ : pieces ([] ++ (quit.cmd ++ '\n' :: [])) ([] : Str).length = _ :=
      pieces_append (by simp [quit, isDelim]) rfl
    rw [pieces_end] at happ
    exact happ
  have hcode : processAdminCmdMessage quitMap .line (message [quit]) = ([], 0) := by
    rw [processAdminCmdMessage_line, hpieces]
    rfl
  refine ⟨hcode, rfl, fun h => ?_⟩
  have hright := h quitMap
  rw [hcode] at hright
  cases hright

end Kknf.LibEvent.AdminCommands
