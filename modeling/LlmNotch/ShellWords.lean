import Mathlib.Data.List.Basic
import Mathlib.Data.String.Basic

/-!
# Words of a shell script

A script is split into words and operators by the POSIX rules for single quotes : inside them every
character stands for itself, outside a blank ends a word and an operator character ends a word and
is a token of its own. Double quotes, backslashes and expansions other than that of a tilde are not
covered. `argumentsOf` gives the arguments of the commands of a name, where a reserved word may
stand before the name.

A word denotes a file, as the list of the names on the way to it : an unquoted `~/` at its start
stands for the home directory, and a relative path starts at the working directory.
-/

namespace LlmNotch

namespace Shell

/-! ## Tokens -/

/-- The characters of a word, each with whether it is quoted. -/
abbrev Word := List (Char × Bool)

inductive Token where
  | word (w : Word)
  | op (c : Char)
  deriving DecidableEq

def isOperator (c : Char) : Bool :=
  c ∈ [';', '&', '|', '<', '>', '(', ')', '\n']

def isBlank (c : Char) : Bool :=
  c = ' ' || c = '\t'

/-- The tokens so far, the word that has begun, and whether a quote is open. -/
structure Lexer where
  tokens : List Token
  current : Option Word
  quoted : Bool
  deriving DecidableEq

namespace Lexer

def start : Lexer :=
  ⟨[], none, false⟩

/-- The word that has begun ends here. -/
def flush (l : Lexer) : Lexer :=
  { l with tokens := l.tokens ++ (l.current.map .word).toList, current := none }

def add (l : Lexer) (c : Char) : Lexer :=
  { l with current := some (l.current.getD [] ++ [(c, l.quoted)]) }

def push (l : Lexer) (c : Char) : Lexer :=
  if c = '\'' then { l with current := some (l.current.getD []), quoted := !l.quoted }
  else if l.quoted then l.add c
  else if isBlank c then l.flush
  else if isOperator c then { l.flush with tokens := l.flush.tokens ++ [.op c] }
  else l.add c

def run (l : Lexer) (text : List Char) : Lexer :=
  text.foldl push l

end Lexer

def lex (script : String) : List Token :=
  (Lexer.start.run script.toList).flush.tokens

/-! ## Commands -/

def Word.text (w : Word) : List Char :=
  w.map Prod.fst

def isReserved (w : Word) : Bool :=
  String.ofList w.text ∈ ["if", "then", "elif", "else", "fi"]

/-- The words between operators. -/
def simpleCommands : List Token → List (List Word)
  | [] => [[]]
  | .op _ :: rest => [] :: simpleCommands rest
  | .word w :: rest => match simpleCommands rest with
    | [] => [[w]]
    | first :: others => (w :: first) :: others

/-- The arguments of a command, if it has this name. -/
def argumentsIn (name : String) : List Word → Option (List Word)
  | [] => none
  | first :: rest =>
    if isReserved first then argumentsIn name rest
    else if String.ofList first.text = name then some rest
    else none

/-- The arguments of every command of this name. -/
def argumentsOf (name : String) (script : String) : List (List Word) :=
  (simpleCommands (lex script)).filterMap (argumentsIn name)

/-! ## Files -/

/-- A file, as the names on the way to it from the root. -/
abbrev Path := List (List Char)

/-- The names of a path; empty ones and the dot stand for nothing. -/
def names (text : List Char) : Path :=
  (text.splitOn '/').filter fun name => name ≠ [] ∧ name ≠ ['.']

/-- The file of a word, for a shell that works in the home directory. -/
def denote (home : Path) (w : Word) : Path :=
  match w with
  | [('~', false)] => home
  | ('~', false) :: ('/', false) :: rest => home ++ names (Word.text rest)
  | ('/', _) :: _ => names (Word.text w)
  | _ => home ++ names (Word.text w)

/-! ## Lexing -/

/-- A word without quotes. -/
def bare (text : List Char) : Word :=
  text.map fun c => (c, false)

/-- A word in quotes. -/
def literal (text : List Char) : Word :=
  text.map fun c => (c, true)

/-- A word of the script itself. -/
def fixed (text : String) : Word :=
  bare text.toList

@[simp] theorem text_bare (text : List Char) : Word.text (bare text) = text := by
  simp [Word.text, bare, Function.comp_def]

@[simp] theorem text_literal (text : List Char) : Word.text (literal text) = text := by
  simp [Word.text, literal, Function.comp_def]

@[simp] theorem argumentsIn_nil (name : String) : argumentsIn name [] = none := rfl

/-- The name of a command, or a reserved word before it. -/
theorem argumentsIn_fixed (name text : String) (rest : List Word) :
    argumentsIn name (fixed text :: rest) =
      if text ∈ ["if", "then", "elif", "else", "fi"] then argumentsIn name rest
      else if text = name then some rest
      else none := by
  have htext : String.ofList (Word.text (fixed text)) = text := by
    rw [fixed, text_bare, String.ofList_toList]
  simp only [argumentsIn, isReserved, htext, decide_eq_true_eq]

namespace Lexer

theorem run_append (l : Lexer) (text rest : List Char) :
    l.run (text ++ rest) = (l.run text).run rest :=
  List.foldl_append

variable {tokens : List Token} {rest : List Char}

/-- Quoted text goes into the word as it is. -/
theorem run_quoted {w : Word} {text : List Char} (h : '\'' ∉ text) :
    (⟨tokens, some w, true⟩ : Lexer).run text = ⟨tokens, some (w ++ literal text), true⟩ := by
  induction text generalizing w with
  | nil => simp [run, literal]
  | cons c text ih =>
    rw [List.mem_cons, not_or] at h
    obtain ⟨hc, hrest⟩ := h
    have hpush : (⟨tokens, some w, true⟩ : Lexer).push c =
        ⟨tokens, some (w ++ [(c, true)]), true⟩ := by
      simp [push, add, Ne.symm hc]
    rw [run, List.foldl_cons, hpush, ← run, ih hrest]
    simp [literal]

/-- The characters of a word that needs no quotes. -/
def Plain (text : List Char) : Prop :=
  ∀ c ∈ text, c ≠ '\'' ∧ isBlank c = false ∧ isOperator c = false

theorem run_plain {current : Option Word} {text : List Char} (h : Plain text) (hne : text ≠ []) :
    (⟨tokens, current, false⟩ : Lexer).run text =
      ⟨tokens, some (current.getD [] ++ bare text), false⟩ := by
  induction text generalizing current with
  | nil => exact (hne rfl).elim
  | cons c text ih =>
    obtain ⟨hquote, hblank, hop⟩ := h c List.mem_cons_self
    have hpush : (⟨tokens, current, false⟩ : Lexer).push c =
        ⟨tokens, some (current.getD [] ++ [(c, false)]), false⟩ := by
      simp [push, add, hquote, hblank, hop]
    rw [run, List.foldl_cons, hpush, ← run]
    cases text with
    | nil => rfl
    | cons d text =>
      rw [ih (fun e he => h e (List.mem_cons_of_mem c he)) (List.cons_ne_nil d text)]
      simp [bare]

/-- The lexer after other tokens. -/
def after (tokens : List Token) (l : Lexer) : Lexer :=
  { l with tokens := tokens ++ l.tokens }

theorem push_after (tokens : List Token) (l : Lexer) (c : Char) :
    (l.after tokens).push c = (l.push c).after tokens := by
  unfold push
  split_ifs <;> simp_all [flush, add, after]

/-- Tokens that are done stay. -/
theorem run_after (tokens : List Token) (l : Lexer) (text : List Char) :
    (l.after tokens).run text = (l.run text).after tokens := by
  induction text generalizing l with
  | nil => rfl
  | cons c text ih => exact (congrArg (fun l => run l text) (push_after tokens l c)).trans (ih _)

theorem tokens_flush_after (tokens : List Token) (l : Lexer) :
    (l.after tokens).flush.tokens = tokens ++ l.flush.tokens :=
  List.append_assoc tokens l.tokens _

/-- The text ends with an open quote. -/
def Opens (text : List Char) (tokens : List Token) : Prop :=
  start.run text = ⟨tokens, some [], true⟩

instance (text : List Char) (tokens : List Token) : Decidable (Opens text tokens) :=
  inferInstanceAs (Decidable (_ = _))

/-- The text closes a quote, and opens the next one. -/
def Separates (text : List Char) (tokens : List Token) : Prop :=
  ∀ before w, (⟨before, some w, true⟩ : Lexer).run text =
    ⟨before ++ .word w :: tokens, some [], true⟩

/-- The text closes a quote and ends the script. -/
def Closes (text : List Char) (tokens : List Token) : Prop :=
  ∀ before w, ((⟨before, some w, true⟩ : Lexer).run text).flush.tokens =
    before ++ .word w :: tokens

theorem run_close_blank (before : List Token) (w : Word) (rest : List Char) :
    (⟨before, some w, true⟩ : Lexer).run ('\'' :: ' ' :: rest) =
      (start.run rest).after (before ++ [.word w]) := by
  rw [← run_after]
  simp [start, after, run, push, isBlank, flush]

theorem run_close_op (before : List Token) (w : Word) {c : Char} (hc : isOperator c = true)
    (rest : List Char) :
    (⟨before, some w, true⟩ : Lexer).run ('\'' :: c :: rest) =
      (start.run rest).after (before ++ [.word w, .op c]) := by
  have hquote : c ≠ '\'' := by
    rintro rfl
    cases hc
  have hblank : isBlank c = false := by
    simp only [isOperator, List.mem_cons, List.not_mem_nil, or_false, decide_eq_true_eq] at hc
    rcases hc with rfl | rfl | rfl | rfl | rfl | rfl | rfl | rfl <;> decide
  rw [← run_after]
  simp [start, after, run, push, flush, hquote, hblank, hc]

theorem separates_blank (h : Opens rest tokens) : Separates ('\'' :: ' ' :: rest) tokens := by
  intro before w
  rw [run_close_blank, h, after, List.append_assoc]
  rfl

theorem separates_op {c : Char} (hc : isOperator c = true) (h : Opens rest tokens) :
    Separates ('\'' :: c :: rest) (.op c :: tokens) := by
  intro before w
  rw [run_close_op before w hc, h, after, List.append_assoc]
  rfl

theorem closes_end : Closes ['\''] [] := by
  intro before w
  simp [run, push, flush]

theorem closes_op {c : Char} (hc : isOperator c = true)
    (h : (start.run rest).flush.tokens = tokens) :
    Closes ('\'' :: c :: rest) (.op c :: tokens) := by
  intro before w
  rw [run_close_op before w hc, tokens_flush_after, h, List.append_assoc]
  rfl

/-- Words in quotes, each with the text up to the next quote and the tokens of that text. -/
theorem run_words {words : List (List Char × List Char × List Token)}
    (h : ∀ e ∈ words, '\'' ∉ e.1 ∧ Separates e.2.1 e.2.2) (before : List Token) :
    (⟨before, some [], true⟩ : Lexer).run (words.flatMap fun e => e.1 ++ e.2.1) =
      ⟨before ++ words.flatMap (fun e => .word (literal e.1) :: e.2.2), some [], true⟩ := by
  induction words generalizing before with
  | nil => simp [run]
  | cons e words ih =>
    obtain ⟨hquote, hseparates⟩ := h e List.mem_cons_self
    rw [List.flatMap_cons, run_append, run_append, run_quoted hquote, List.nil_append, hseparates,
      ih fun other hother => h other (List.mem_cons_of_mem e hother), List.flatMap_cons,
      List.append_assoc]

end Lexer

/-- A script with words in quotes. -/
theorem lex_words {script : String} {first word last : List Char}
    (words : List (List Char × List Char × List Token)) {before after : List Token}
    (hscript : script.toList = first ++ ((words.flatMap fun e => e.1 ++ e.2.1) ++ (word ++ last)))
    (hfirst : Lexer.Opens first before)
    (hwords : ∀ e ∈ words, '\'' ∉ e.1 ∧ Lexer.Separates e.2.1 e.2.2) (hword : '\'' ∉ word)
    (hlast : Lexer.Closes last after) :
    lex script = before ++ words.flatMap (fun e => .word (literal e.1) :: e.2.2) ++
      .word (literal word) :: after := by
  rw [lex, hscript, Lexer.run_append, hfirst, Lexer.run_append, Lexer.run_words hwords,
    Lexer.run_append, Lexer.run_quoted hword, List.nil_append, hlast]

/-- A script that starts with a word without quotes. -/
theorem lex_plain {script : String} {text rest : List Char}
    (hscript : script.toList = text ++ ' ' :: rest) (hplain : Lexer.Plain text) (hne : text ≠ []) :
    lex script = .word (bare text) :: (Lexer.start.run rest).flush.tokens := by
  have hblank : (⟨[], some (bare text), false⟩ : Lexer).run (' ' :: rest) =
      (Lexer.start.run rest).after [.word (bare text)] := by
    rw [← Lexer.run_after]
    simp [Lexer.start, Lexer.after, Lexer.run, Lexer.push, isBlank, Lexer.flush]
  rw [lex, hscript, Lexer.run_append, Lexer.start, Lexer.run_plain hplain hne]
  exact congrArg (fun l => (Lexer.flush l).tokens) hblank

/-! ## Paths -/

theorem names_append (text rest : List Char) :
    names (text ++ '/' :: rest) = names text ++ names rest := by
  have hsplit : (text ++ '/' :: rest).splitOn '/' = text.splitOn '/' ++ rest.splitOn '/' :=
    List.splitOnP_append_cons text rest (beq_self_eq_true '/')
  rw [names, hsplit, List.filter_append]
  rfl

/-- A tilde in quotes is the name of a file. -/
theorem denote_literal (home : Path) (rest : List Char) :
    denote home (literal ('~' :: '/' :: rest)) = home ++ ['~'] :: names rest := by
  have hnames : names ('~' :: '/' :: rest) = ['~'] :: names rest := by
    have htilde : names ['~'] = [['~']] := by decide
    rw [← List.singleton_append (x := '~'), names_append, htilde]
    rfl
  have hword : denote home (literal ('~' :: '/' :: rest)) =
      home ++ names (Word.text (literal ('~' :: '/' :: rest))) := rfl
  rw [hword, text_literal, hnames]

theorem denote_bare (home : Path) (rest : List Char) :
    denote home (bare ('~' :: '/' :: rest)) = home ++ names rest := by
  have hword : denote home (bare ('~' :: '/' :: rest)) = home ++ names (Word.text (bare rest)) :=
    rfl
  rw [hword, text_bare]

end Shell

end LlmNotch
