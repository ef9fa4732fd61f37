import ChainIndexer.Text.Blank
import ChainIndexer.Keyed

/-
  Variables, and the file that may define more of them.

  A line of the file is a name, an equals sign and a value. Blanks around either and double quotes
  around the value do not count. Lines that are blank, begin with `#`, or have no equals sign or no
  name define nothing. A variable that is defined keeps its value. One that is not cannot be given a
  NUL: an attempt to do so stops the program.
-/

namespace ChainIndexer

open Text

/-- Variables with their values. -/
abbrev Variables := List (String × String)

namespace Variables

/-- A value without the double quotes at its ends. -/
def unquoted (cs : List Char) : List Char :=
  ((cs.dropWhile (· == '"')).reverse.dropWhile (· == '"')).reverse

/-- The definition on a line, if it has one. -/
def readLine (line : List Char) : Option (String × String) :=
  let line := trim line
  let name := trim (line.takeWhile (· != '='))
  match line.dropWhile (· != '=') with
  | [] => none
  | _ :: value =>
    if line.head? = some '#' ∨ name = [] then none
    else some (String.ofList name, String.ofList (unquoted (trim value)))

/-- The definitions of a file, in order. -/
def readFile (file : String) : Variables :=
  (file.toList.splitOn '\n').filterMap readLine

/-- Defines a variable that is not defined yet. -/
def define (vars : Variables) (definition : String × String) : Variables :=
  if (vars.lookup definition.1).isSome then vars else vars ++ [definition]

/-- The variables together with those that a file defines. -/
def load (vars : Variables) (file : String) : Variables :=
  (readFile file).foldl define vars

/-- Whether there is a NUL in a definition, for which a variable has no room. -/
def holdsNul (definition : String × String) : Bool :=
  definition.1.toList.contains '\x00' || definition.2.toList.contains '\x00'

/-- Whether the program stops while it defines variables in turn. -/
def stopsAt : Variables → Variables → Bool
  | _, [] => false
  | vars, d :: rest =>
    ((vars.lookup d.1).isNone && holdsNul d) || stopsAt (vars.define d) rest

/-- The variables after a file has been loaded, unless that stops the program. -/
def load? (vars : Variables) (file : String) : Option Variables :=
  if stopsAt vars (readFile file) then none else some (vars.load file)

/-- The value of a variable, or a default. -/
def valueOr (vars : Variables) (name default : String) : String :=
  (vars.lookup name).getD default

theorem lookup_append (vars : Variables) (d : String × String) (name : String) :
    (vars ++ [d]).lookup name = (vars.lookup name).or (if name = d.1 then some d.2 else none) := by
  induction vars with
  | nil =>
    obtain ⟨k, x⟩ := d
    simp only [List.nil_append, Keyed.lookup_entry, List.lookup_nil, Option.none_or]
  | cons v rest ih =>
    obtain ⟨k, x⟩ := v
    simp only [List.cons_append, Keyed.lookup_entry, ih]
    split <;> simp

/-- A variable that is defined keeps its value; one that is not takes that of the definition. -/
theorem lookup_define (vars : Variables) (d : String × String) (name : String) :
    (vars.define d).lookup name =
      (vars.lookup name).or (if name = d.1 then some d.2 else none) := by
  unfold define
  split
  · rename_i h
    obtain ⟨x, hx⟩ := Option.isSome_iff_exists.1 h
    by_cases hn : name = d.1
    · simp [hn, hx]
    · simp [hn]
  · exact lookup_append vars d name

end Variables

end ChainIndexer
