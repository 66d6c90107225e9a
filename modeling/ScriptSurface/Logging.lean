import ScriptSurface.Event
import ScriptSurface.Text.Blank

/-!
# Where events go

Events are printed only if somebody asks for them.  Two settings can ask: one of the program's own
and a general one, which counts when the first is not given.  A third setting chooses the format.

A setting that asks is a filter: directives with commas between them, each a level, or a target with
a level after an equals sign, or a target alone, and no blanks anywhere.  A level is a word or its
number.  An event passes if the most specific directive for its target lets its level through; a
filter without directives lets errors pass.
-/

namespace ScriptSurface

/-! ### Formats -/

/-- How events are printed. -/
inductive LogFormat where
  /-- Lines of text. -/
  | text
  /-- Indented lines. -/
  | tree
  /-- One JSON document for each event. -/
  | json
deriving DecidableEq, Inhabited

namespace LogFormat

/-- The format of a setting, whatever the case of its ASCII letters; an unknown one is text. -/
def ofSetting (setting : String) : LogFormat :=
  match (Text.trimBlank setting.toList).map Char.toLower with
  | ['t', 'r', 'e', 'e'] => tree
  | ['j', 's', 'o', 'n'] => json
  | _ => text

end LogFormat

/-! ### Filters -/

/-- A part of a filter: which levels pass for the targets that begin in one way, or for every
target. -/
structure Directive where
  /-- How the targets begin, empty for every one. -/
  target : List Char
  /-- The rank of the most detailed level that passes. -/
  rank : Nat
deriving DecidableEq, Inhabited

namespace Directive

/-- The words for levels, with their ranks. -/
def rankWords : List (String × Nat) :=
  [("off", 0), ("error", 1), ("warn", 2), ("info", 3), ("debug", 4), ("trace", 5)]

/-- The number that a word writes in decimal digits, if it does; a plus sign may stand before
them. -/
def decimal? (word : List Char) : Option Nat :=
  let digits := if word.head? = some '+' then word.tail else word
  if digits.isEmpty || !digits.all Char.isDigit then none
  else some (digits.foldl (fun n c => 10 * n + (c.toNat - '0'.toNat)) 0)

/-- The rank that a word gives: the rank itself as a number, or the word for its level, whatever
the case of its ASCII letters. -/
def rankOfWord? (word : List Char) : Option Nat :=
  match decimal? word with
  | some n => if n ≤ Level.trace.rank then some n else none
  | none => rankWords.lookup (String.ofList (word.map Char.toLower))

/-- Whether a directive may begin with a character: a letter, a digit, a mark that occurs in
targets, or anything beyond ASCII. -/
def mayBegin (c : Char) : Bool :=
  c.isAlphanum || c = '-' || c = ':' || c = '_' || 0x80 ≤ c.toNat

/-- The directive written in a part of a setting, if it is one.  Blanks count as part of the word
they stand beside, and a target whose level is left out lets every level through. -/
def ofPart? (part : List Char) : Option Directive :=
  if part.head?.any mayBegin then
    match part.span (· ≠ '=') with
    | (target, ['=']) => some ⟨target, Level.trace.rank⟩
    | (target, '=' :: word) => (rankOfWord? word).map (⟨target, ·⟩)
    | (word, _) =>
      match rankOfWord? word with
      | some rank => some ⟨[], rank⟩
      | none => some ⟨word, Level.trace.rank⟩
  else none

/-- Whether the directive speaks of a target. -/
def covers (d : Directive) (target : List Char) : Bool := d.target.isPrefixOf target

end Directive

/-- A filter of events. -/
structure LogFilter where
  /-- The directives in the order of the setting. -/
  directives : List Directive
deriving DecidableEq, Inhabited

namespace LogFilter

/-- The parts of a list between separators. -/
def splitParts (separator : Char) : List Char → List (List Char)
  | [] => [[]]
  | c :: cs =>
    match splitParts separator cs with
    | part :: parts => if c = separator then [] :: part :: parts else (c :: part) :: parts
    | [] => [[c]]

/-- The filter of a setting; parts that are no directives are ignored. -/
def ofSetting (setting : String) : LogFilter :=
  ⟨(splitParts ',' setting.toList).filterMap Directive.ofPart?⟩

/-- The more specific of two directives for a target, the later one among equals. -/
def moreSpecific (target : List Char) (best : Option Directive) (d : Directive) :
    Option Directive :=
  if d.covers target then
    match best with
    | some b => if b.target.length ≤ d.target.length then some d else some b
    | none => some d
  else best

/-- Whether an event of a level passes for a target. -/
def passes (f : LogFilter) (target : String) (level : Level) : Bool :=
  match f.directives.foldl (moreSpecific target.toList) none with
  | some d => level.rank ≤ d.rank
  | none => f.directives.isEmpty && level.rank ≤ Level.error.rank

end LogFilter

/-! ### Installation -/

/-- The settings that say where events go. -/
structure LogSettings where
  /-- The program's own filter. -/
  own : Option String
  /-- The general filter. -/
  general : Option String
  /-- The format. -/
  format : Option String
deriving DecidableEq, Inhabited

/-- What prints events. -/
structure Subscriber where
  /-- Which events it prints. -/
  filter : LogFilter
  /-- How it prints them. -/
  format : LogFormat
deriving DecidableEq, Inhabited

namespace Subscriber

/-- The subscriber that settings ask for, if they ask for one. -/
def ofSettings? (s : LogSettings) : Option Subscriber :=
  (s.own <|> s.general).map fun setting =>
    ⟨LogFilter.ofSetting setting, LogFormat.ofSetting (s.format.getD "")⟩

/-- Installs the subscriber that settings ask for unless there is one; answers whether it did. -/
def install (s : LogSettings) : StateM (Option Subscriber) Bool := fun installed =>
  match installed, ofSettings? s with
  | none, some new => (true, some new)
  | _, _ => (false, installed)

/-- The format in which an event of a level comes out for a target, if it does. -/
def format? (installed : Option Subscriber) (target : String) (level : Level) :
    Option LogFormat :=
  installed.bind fun s => if s.filter.passes target level then some s.format else none

end Subscriber

end ScriptSurface
