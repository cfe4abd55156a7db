import TinyLisp.Console
import TinyLisp.Proofs.Scope.Overlay
import TinyLisp.Proofs.Session.OneLine

/-!
The framing of a conversation.

What a line is answered with depends on its text without the white space around it and on the texts
before: the latest of them that asks how arguments are passed chooses this, and each of them that
is no command, whether it failed or not, has been run on the globals. A text that is no command is
answered by one line, because no line of the input has a line feed and nothing that a session shows
has one either. So the lines that are printed can be told apart again.
-/

set_option autoImplicit false

namespace TinyLisp

namespace Console

/-- A text cut at its line feeds. -/
structure IsCut (text : List Char) (lines : List (List Char)) : Prop where
  nonempty : lines ≠ []
  oneLine : ∀ line ∈ lines, '\n' ∉ line
  together : ['\n'].intercalate lines = text

/-- The characters with the property White_Space. -/
def IsWhite (char : Char) : Prop :=
  char.toNat ∈ [0x09, 0x0A, 0x0B, 0x0C, 0x0D, 0x20, 0x85, 0xA0, 0x1680, 0x2000, 0x2001, 0x2002,
    0x2003, 0x2004, 0x2005, 0x2006, 0x2007, 0x2008, 0x2009, 0x200A, 0x2028, 0x2029, 0x202F, 0x205F,
    0x3000]

/-- A line, and its text without the white space around it. -/
structure Trims (line : List Char) (text : String) : Prop where
  around : ∃ left right, line = left ++ text.toList ++ right ∧ ∀ char ∈ left ++ right, IsWhite char
  first : ∀ char ∈ text.toList.head?, ¬IsWhite char
  last : ∀ char ∈ text.toList.getLast?, ¬IsWhite char

/-- The texts that nothing is run for. -/
def commands : List String :=
  ["", ":help", ":env", ":eager", ":lazy", ":quit", ":exit"]

/-- How arguments are passed after some texts, the latest of which is first. -/
def passingAfter (earlier : List String) : Passing :=
  if earlier.find? (· ∈ [":eager", ":lazy"]) = some ":eager" then .evaluated else .unevaluated

/-- The globals after some texts, the latest of which is first. -/
def worldAfter : List String → World
  | [] => ⟨[.empty]⟩
  | text :: earlier =>
      if text ∈ commands then worldAfter earlier
      else (run ⟨256, passingAfter earlier⟩ ⟨[], 0⟩ (text ++ "\n") (worldAfter earlier)).2

def globalsAfter (earlier : List String) : List (String × Value) :=
  ((worldAfter earlier).root 0).entries

/-- The line that shows a global. -/
def entryLine (entry : String × Value) : String :=
  "  " ++ entry.1 ++ " = " ++ entry.2.render

/-- The lines that show some globals. -/
def titled (heading : String) (entries : List (String × Value)) : List String :=
  if entries = [] then []
  else (heading ++ " (" ++ Nat.repr entries.length ++ "):") :: entries.map entryLine

/-- The lines that answer a text after earlier ones, the latest of which is first. -/
inductive Answered (earlier : List String) : String → List String → Prop
  | blank : Answered earlier "" []
  | help :
      Answered earlier ":help"
        ["Commands:",
          "  :help   - Show this help message",
          "  :env    - Show global bindings",
          "  :eager  - Evaluate function arguments before binding them",
          "  :lazy   - Bind function arguments unevaluated (default)",
          "  :quit   - Exit the interpreter",
          "  :exit   - Exit the interpreter",
          "",
          "Forms:",
          "  Numbers: 42, -2.5, inf    Strings: \"hi\"    Nil: ()",
          "  Special forms: eval, defvar, lambda, funcall",
          "  Arithmetic: +, *, -, /",
          "  (defvar name expr)             - Define a global",
          "  (lambda (params...) body...)   - Build a function",
          "  (funcall f args...)            - Call a function",
          "  (eval expr)                    - Evaluate the value of expr",
          "",
          "Examples:",
          "  (defvar sq (lambda (n) (* (eval n) (eval n))))",
          "  (sq (+ 1 2))",
          ""]
  | noGlobals (none : globalsAfter earlier = []) :
      Answered earlier ":env" ["Environment is empty."]
  | globals (some : globalsAfter earlier ≠ []) :
      Answered earlier ":env"
        (titled "Functions" ((globalsAfter earlier).filter (·.2 matches .function ..)) ++
          titled "Values" ((globalsAfter earlier).filter (!·.2 matches .function ..)))
  | eager : Answered earlier ":eager" ["Arguments are evaluated before binding."]
  | lazy : Answered earlier ":lazy" ["Arguments are bound unevaluated; use eval to force them."]
  | value {text : String} {value : Value} (noCommand : text ∉ commands)
      (returned : (run ⟨256, passingAfter earlier⟩ ⟨[], 0⟩ (text ++ "\n")
        (worldAfter earlier)).1 = .ok value) :
      Answered earlier text [value.render]
  | failure {text : String} {error : RunError} (noCommand : text ∉ commands)
      (failed : (run ⟨256, passingAfter earlier⟩ ⟨[], 0⟩ (text ++ "\n")
        (worldAfter earlier)).1 = .error error) :
      Answered earlier text ["Error: " ++ error.message]

/-- Texts one after the other, with the lines that answer each of them. -/
inductive Conversation : List String → List String → List (List String) → Prop
  | ended (earlier : List String) : Conversation earlier [] []
  | goesOn {earlier later : List String} {text : String} {output : List String}
      {outputs : List (List String)} (answered : Answered earlier text output)
      (rest : Conversation (text :: earlier) later outputs) :
      Conversation earlier (text :: later) (output :: outputs)

/-- An output as it is printed, with a line feed behind each line. -/
def printed (output : List String) : List Char :=
  output.flatMap fun line => line.toList ++ ['\n']

section Lines

theorem lines_ne_nil (text : List Char) : lines text ≠ [] := by
  fun_cases lines text <;> exact List.cons_ne_nil _ _

theorem line_feed_not_mem_lines (text : List Char) : ∀ line ∈ lines text, '\n' ∉ line := by
  fun_induction lines text with
  | case1 => exact List.forall_mem_singleton.mpr List.not_mem_nil
  | case2 rest ih => exact List.forall_mem_cons.mpr ⟨List.not_mem_nil, ih⟩
  | case3 char rest notLineFeed none ih =>
      intro line member
      rw [List.mem_singleton.mp member]
      exact mt List.mem_singleton.mp (Ne.symm notLineFeed)
  | case4 char rest notLineFeed line later split ih =>
      rw [split] at ih
      obtain ⟨first, others⟩ := List.forall_mem_cons.mp ih
      have longer := List.not_mem_cons_of_ne_of_not_mem (Ne.symm notLineFeed) first
      exact List.forall_mem_cons.mpr ⟨longer, others⟩

theorem intercalate_lines (text : List Char) : ['\n'].intercalate (lines text) = text := by
  fun_induction lines text with
  | case1 => rfl
  | case2 rest ih =>
      rw [List.intercalate_cons_of_ne_nil (lines_ne_nil rest), ih]
      rfl
  | case3 char rest notLineFeed none ih => exact absurd none (lines_ne_nil rest)
  | case4 char rest notLineFeed line later split ih =>
      rw [split] at ih
      rw [← ih]
      cases later with
      | nil => simp
      | cons next later => simp [List.intercalate_cons_cons]

theorem is_cut_lines (text : List Char) : IsCut text (lines text) :=
  ⟨lines_ne_nil text, line_feed_not_mem_lines text, intercalate_lines text⟩

/-- Printed lines can be told apart again, if none of them has a line feed. -/
theorem is_cut_printed {output : List String} (oneLine : ∀ line ∈ output, Text.OneLine line) :
    IsCut (printed output) (output.map String.toList ++ [[]]) where
  nonempty := List.append_ne_nil_of_right_ne_nil _ (List.cons_ne_nil _ _)
  oneLine := List.forall_mem_append.mpr
    ⟨List.forall_mem_map.mpr oneLine, List.forall_mem_singleton.mpr List.not_mem_nil⟩
  together := by
    clear oneLine
    induction output with
    | nil => rfl
    | cons line output ih =>
        rw [List.map_cons, List.cons_append, List.intercalate_cons_of_ne_nil (by simp), ih]
        simp [printed]

end Lines

section Trimming

theorem is_blank_iff {char : Char} : Text.isBlank char = true ↔ IsWhite char := by
  simp only [Text.isBlank, IsWhite, Bool.or_eq_true, Bool.and_eq_true, decide_eq_true_eq,
    beq_iff_eq, List.mem_cons, List.not_mem_nil, or_false]
  omega

theorem is_white_of_mem_take_while {chars : List Char} :
    ∀ char ∈ chars.takeWhile Text.isBlank, IsWhite char := by
  intro char member
  exact is_blank_iff.mp (List.mem_takeWhile_imp member)

theorem not_white_head_drop_while {chars : List Char} :
    ∀ char ∈ (chars.dropWhile Text.isBlank).head?, ¬IsWhite char := by
  intro char first
  have stopped := List.head?_dropWhile_not Text.isBlank chars
  rw [Option.mem_def.mp first] at stopped
  rw [← is_blank_iff, stopped]
  exact Bool.false_ne_true

theorem trims_trim_blanks (line : List Char) :
    Trims line (String.ofList (Text.trimBlanks line)) := by
  let behind := line.dropWhile Text.isBlank
  have kept : behind = Text.trimBlanks line ++ (behind.reverse.takeWhile Text.isBlank).reverse := by
    rw [Text.trimBlanks, ← List.reverse_append, List.takeWhile_append_dropWhile,
      List.reverse_reverse]
  constructor
  · refine ⟨line.takeWhile Text.isBlank, (behind.reverse.takeWhile Text.isBlank).reverse, ?_, ?_⟩
    · rw [String.toList_ofList, List.append_assoc, ← kept, List.takeWhile_append_dropWhile]
    · simp only [List.forall_mem_append, List.mem_reverse]
      exact ⟨is_white_of_mem_take_while, is_white_of_mem_take_while⟩
  · intro char first
    rw [String.toList_ofList] at first
    have starts : char ∈ behind.head? := by
      rw [kept]
      exact List.mem_head?_append_of_mem_head? first
    exact not_white_head_drop_while char starts
  · intro char last
    rw [String.toList_ofList, Text.trimBlanks, List.getLast?_reverse] at last
    exact not_white_head_drop_while char last

end Trimming

section Conversation

variable {earlier : List String} {text : String}

/-- A conversation after some texts, the latest of which is first. -/
def after (earlier : List String) : Console :=
  ⟨worldAfter earlier, ⟨[], 0⟩, ⟨256, passingAfter earlier⟩⟩

def trimmed (line : List Char) : String :=
  String.ofList (Text.trimBlanks line)

/-- The texts of some lines that are answered: those before the first one to quit. -/
def heard (lines : List (List Char)) : List String :=
  (lines.map trimmed).takeWhile (· ∉ [":quit", ":exit"])

theorem passing_after_other (notEager : text ≠ ":eager") (notLazy : text ≠ ":lazy") :
    passingAfter (text :: earlier) = passingAfter earlier := by
  simp [passingAfter, notEager, notLazy]

theorem after_command (isCommand : text ∈ commands) (notEager : text ≠ ":eager")
    (notLazy : text ≠ ":lazy") : after (text :: earlier) = after earlier := by
  rw [after, worldAfter, if_pos isCommand, passing_after_other notEager notLazy, after]

theorem after_source (noCommand : text ∉ commands) :
    after (text :: earlier) =
      ⟨(run ⟨256, passingAfter earlier⟩ ⟨[], 0⟩ (text ++ "\n") (worldAfter earlier)).2, ⟨[], 0⟩,
        ⟨256, passingAfter earlier⟩⟩ := by
  have notEager : text ≠ ":eager" := by
    intro eager
    exact noCommand (eager ▸ by decide)
  have notLazy : text ≠ ":lazy" := by
    intro lazy
    exact noCommand (lazy ▸ by decide)
  rw [after, worldAfter, if_neg noCommand, passing_after_other notEager notLazy]

theorem answered_listing :
    Answered earlier ":env" (listing ((worldAfter earlier).root 0)) := by
  unfold listing
  rw [List.partition_eq_filter_filter]
  dsimp only
  split
  case isTrue none => exact .noGlobals none
  case isFalse some => exact .globals some

theorem answered_answer (noCommand : text ∉ commands) :
    Answered earlier text
      [answer (run ⟨256, passingAfter earlier⟩ ⟨[], 0⟩ (text ++ "\n") (worldAfter earlier)).1] := by
  cases ran : (run ⟨256, passingAfter earlier⟩ ⟨[], 0⟩ (text ++ "\n") (worldAfter earlier)).1 with
  | ok value => exact .value noCommand ran
  | error error => exact .failure noCommand ran

/-- A line that does not quit is answered according to its text, which is then the latest one. -/
theorem respond_after (earlier : List String) {line : List Char}
    (goesOn : trimmed line ∉ [":quit", ":exit"]) :
    ∃ output, Answered earlier (trimmed line) output ∧
      (after earlier).respond (.ofLine line) = (output, some (after (trimmed line :: earlier))) := by
  unfold Request.ofLine
  unfold trimmed at goesOn ⊢
  generalize String.ofList (Text.trimBlanks line) = text at goesOn ⊢
  split
  case h_1 =>
    rw [after_command (by decide) (by decide) (by decide)]
    exact ⟨[], .blank, rfl⟩
  case h_2 =>
    rw [after_command (by decide) (by decide) (by decide)]
    exact ⟨_, .help, rfl⟩
  case h_3 =>
    rw [after_command (by decide) (by decide) (by decide)]
    exact ⟨_, answered_listing, rfl⟩
  case h_4 => exact ⟨_, .eager, rfl⟩
  case h_5 => exact ⟨_, .lazy, rfl⟩
  case h_6 => exact absurd goesOn (by decide)
  case h_7 => exact absurd goesOn (by decide)
  case h_8 blank help environment eager lazy quit exit =>
    have noCommand : text ∉ commands := by
      simp only [commands, List.mem_cons, List.not_mem_nil, or_false, not_or]
      exact ⟨blank, help, environment, eager, lazy, quit, exit⟩
    rw [after_source noCommand]
    exact ⟨_, answered_answer noCommand, rfl⟩

theorem request_quit {line : List Char} (quits : trimmed line ∈ [":quit", ":exit"]) :
    Request.ofLine line = .quit := by
  unfold trimmed at quits
  unfold Request.ofLine
  generalize String.ofList (Text.trimBlanks line) = text at quits ⊢
  rcases List.mem_pair.mp quits with rfl | rfl <;> rfl

theorem converse_after (earlier : List String) (later : List (List Char)) :
    ∃ outputs, Conversation earlier (heard later) outputs ∧
      converse (after earlier) later = outputs.flatten ++ ["Goodbye!"] := by
  induction later generalizing earlier with
  | nil => exact ⟨[], .ended earlier, rfl⟩
  | cons line later ih =>
      rw [converse]
      by_cases quits : trimmed line ∈ [":quit", ":exit"]
      · have nothing : heard (line :: later) = [] := by
          rw [heard, List.map_cons, List.takeWhile_cons, if_neg]
          exact not_not.mpr quits ∘ of_decide_eq_true
        rw [nothing, request_quit quits]
        exact ⟨[], .ended earlier, rfl⟩
      · obtain ⟨output, answered, responded⟩ := respond_after earlier quits
        obtain ⟨outputs, rest, conversed⟩ := ih (trimmed line :: earlier)
        have first : heard (line :: later) = trimmed line :: heard later := by
          rw [heard, List.map_cons, List.takeWhile_cons, if_pos (decide_eq_true quits), heard]
        rw [first, responded]
        refine ⟨output :: outputs, .goesOn answered rest, ?_⟩
        rw [List.flatten_cons, List.append_assoc, ← conversed]

end Conversation

section Listing

/-- Whether a line of a listing shows a global, and is not a heading. -/
def isIndented (line : String) : Bool :=
  "  ".toList.isPrefixOf line.toList

theorem indented_entry_line (entry : String × Value) : isIndented (entryLine entry) = true := by
  simp [isIndented, entryLine]

theorem filter_indented_titled {heading : String}
    (plain : ∀ count, isIndented (heading ++ count) = false) (entries : List (String × Value)) :
    (titled heading entries).filter isIndented = entries.map entryLine := by
  unfold titled
  split
  case isTrue none => rw [none]; rfl
  case isFalse =>
    have headingPlain := plain (" (" ++ Nat.repr entries.length ++ "):")
    have indented : ∀ line ∈ entries.map entryLine, isIndented line = true :=
      List.forall_mem_map.mpr fun entry _ => indented_entry_line entry
    simp only [← String.append_assoc] at headingPlain
    rw [List.filter_cons_of_neg (by simp [headingPlain])]
    exact List.filter_eq_self.mpr indented

/-- A listing shows each global on one line. -/
theorem indented_listing {earlier output : List String}
    (answered : Answered earlier ":env" output) :
    (output.filter isIndented).Perm ((globalsAfter earlier).map entryLine) := by
  generalize asked : ":env" = text at answered
  cases answered with
  | noGlobals none =>
      rw [none]
      decide
  | globals some =>
      have functionsPlain : ∀ count, isIndented ("Functions" ++ count) = false := by
        intro count
        simp [isIndented, List.isPrefixOf]
      have valuesPlain : ∀ count, isIndented ("Values" ++ count) = false := by
        intro count
        simp [isIndented, List.isPrefixOf]
      rw [List.filter_append, filter_indented_titled functionsPlain,
        filter_indented_titled valuesPlain, ← List.map_append]
      exact (List.filter_append_perm _ _).map entryLine
  | value noCommand | failure noCommand =>
      rw [← asked] at noCommand
      exact absurd noCommand (by decide)
  | _ => exact absurd asked (by decide)

end Listing

section OneLine

variable {earlier output : List String} {text : String}

theorem no_frames : ValueClass.oneLine.BindsFrames ⟨[], 0⟩ :=
  List.forall_mem_nil _

theorem one_line_writes (oneLine : ∀ text ∈ earlier, Text.OneLine text) :
    ValueClass.oneLine.Writes 0 (worldAfter []) (worldAfter earlier) := by
  induction earlier with
  | nil => exact .nothing _
  | cons text earlier ih =>
      obtain ⟨first, rest⟩ := List.forall_mem_cons.mp oneLine
      have writes := ih rest
      rw [worldAfter.eq_2]
      split
      case isTrue => exact writes
      case isFalse =>
        have fresh : ValueClass.oneLine.Binds ((worldAfter []).root 0) := nofun
        have members := ValueClass.one_line_members first
        have bound := writes.binds fresh
        exact writes.trans (ValueClass.keeps_run _ no_frames members bound).1

/-- The globals have names and values on one line. -/
theorem one_line_of_global (oneLine : ∀ text ∈ earlier, Text.OneLine text)
    {entry : String × Value} (member : entry ∈ globalsAfter earlier) :
    Text.OneLine entry.1 ∧ entry.2.OneLine :=
  (one_line_writes oneLine).written_of_fresh rfl (Bindings.mem_entries_iff.mp member)

theorem one_line_of_titled {heading : String} (headingOneLine : Text.OneLine heading)
    {entries : List (String × Value)}
    (each : ∀ entry ∈ entries, Text.OneLine entry.1 ∧ entry.2.OneLine) :
    ∀ line ∈ titled heading entries, Text.OneLine line := by
  unfold titled
  split
  case isTrue => exact List.forall_mem_nil _
  case isFalse =>
    rw [List.forall_mem_cons]
    constructor
    · simp only [Text.one_line_append_iff, headingOneLine, Text.one_line_repr]
      decide
    · rw [List.forall_mem_map]
      intro entry member
      obtain ⟨name, value⟩ := each entry member
      unfold entryLine
      simp only [Text.one_line_append_iff, name, Value.one_line_render value]
      decide

theorem one_line_of_answered (oneLine : ∀ text ∈ earlier, Text.OneLine text)
    (textOneLine : Text.OneLine text) (answered : Answered earlier text output) :
    ∀ line ∈ output, Text.OneLine line := by
  have bound : ValueClass.oneLine.Binds ((worldAfter earlier).root 0) :=
    (one_line_writes oneLine).binds (show ValueClass.oneLine.Binds .empty from nofun)
  have shown := one_line_of_run ⟨256, passingAfter earlier⟩ no_frames bound textOneLine
  cases answered with
  | help => decide +kernel
  | globals some =>
      rw [List.forall_mem_append]
      constructor
      all_goals
        apply one_line_of_titled (by decide)
        intro entry member
        exact one_line_of_global oneLine (List.mem_of_mem_filter member)
  | value noCommand returned =>
      rw [returned] at shown
      exact List.forall_mem_singleton.mpr shown
  | failure noCommand failed =>
      rw [failed] at shown
      rw [List.forall_mem_singleton, Text.one_line_append_iff]
      exact ⟨by decide, shown⟩
  | _ => decide

theorem one_line_of_conversation {later : List String} {outputs : List (List String)}
    (conversation : Conversation earlier later outputs)
    (oneLine : ∀ text ∈ earlier, Text.OneLine text)
    (laterOneLine : ∀ text ∈ later, Text.OneLine text) :
    ∀ line ∈ outputs.flatten, Text.OneLine line := by
  induction conversation with
  | ended => exact List.forall_mem_nil _
  | goesOn answered rest ih =>
      obtain ⟨first, others⟩ := List.forall_mem_cons.mp laterOneLine
      rw [List.flatten_cons, List.forall_mem_append]
      exact ⟨one_line_of_answered oneLine first answered,
        ih (List.forall_mem_cons.mpr ⟨first, oneLine⟩) others⟩

theorem one_line_of_heard (input : List Char) :
    ∀ text ∈ heard (lines input), Text.OneLine text := by
  intro text member
  obtain ⟨line, listed, rfl⟩ := List.mem_map.mp (List.takeWhile_prefix _ |>.mem member)
  apply (Text.one_line_of_list_iff _).mpr
  intro lineFeed
  exact line_feed_not_mem_lines input line listed (Text.mem_of_mem_trim_blanks lineFeed)

end OneLine

/-- The output to an input is the banner, the answers to the texts of its lines before the first one
to quit, each in the state that those before it have left, and a farewell. No line of it has a line
feed, so that the lines which are printed are these lines. A listing shows each global on one
line. -/
theorem transcript_frames_each_line (input : String) :
    (∃ lines texts outputs, IsCut input.toList lines ∧ List.Forall₂ Trims lines texts ∧
      Conversation [] (texts.takeWhile (· ∉ [":quit", ":exit"])) outputs ∧
      transcript input =
        ["Lisg - a tiny Lisp interpreter",
          "Enter expressions like: (+ 1 2)",
          "Type :help for more commands, or Ctrl+D to exit.",
          ""] ++ outputs.flatten ++ ["Goodbye!"]) ∧
      (∀ line ∈ transcript input, Text.OneLine line) ∧
      IsCut (printed (transcript input)) ((transcript input).map String.toList ++ [[]]) ∧
      ∀ earlier output, Answered earlier ":env" output →
        (output.filter isIndented).Perm ((globalsAfter earlier).map entryLine) := by
  obtain ⟨outputs, conversation, conversed⟩ := converse_after [] (lines input.toList)
  have framed : transcript input = banner ++ outputs.flatten ++ ["Goodbye!"] := by
    rw [List.append_assoc, ← conversed]
    rfl
  have oneLine : ∀ line ∈ transcript input, Text.OneLine line := by
    have answersOneLine := one_line_of_conversation conversation (List.forall_mem_nil _)
      (one_line_of_heard input.toList)
    rw [framed]
    simp only [List.forall_mem_append]
    exact ⟨⟨by decide, answersOneLine⟩, by decide⟩
  have trims : List.Forall₂ Trims (lines input.toList) ((lines input.toList).map trimmed) := by
    rw [List.forall₂_map_right_iff, List.forall₂_same]
    exact fun line _ => trims_trim_blanks line
  exact ⟨⟨lines input.toList, _, outputs, is_cut_lines _, trims, conversation, framed⟩, oneLine,
    is_cut_printed oneLine, fun earlier output => indented_listing⟩

end Console

end TinyLisp
