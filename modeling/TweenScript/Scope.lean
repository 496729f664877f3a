/-!
# Scopes

A name table renames objects and gives values to variables. Tables stack up to a scope: an object
name passes through them from the innermost to the outermost, and of two tables with a value for a
variable the outermost has the say.
-/

namespace TweenScript

/-- Names for objects and variables. Of several entries for a name the first counts. -/
structure NameTable where
  /-- Names with the host's paths they stand for. -/
  paths : List (String × String) := []
  /-- The values of variables. -/
  values : List (String × Float) := []
  deriving DecidableEq

namespace NameTable

/-- The path a name stands for; a name without an entry is its own path. -/
def path (t : NameTable) (name : String) : String :=
  (t.paths.lookup name).getD name

/-- The value of a variable. -/
def value? (t : NameTable) (name : String) : Option Float :=
  t.values.lookup name

end NameTable

/-- Name tables from the innermost to the outermost. -/
abbrev Scope : Type :=
  List NameTable

namespace Scope

/-- The path a name stands for after every table had its turn. -/
def path (s : Scope) (name : String) : String :=
  s.foldl (fun name t => t.path name) name

/-- The value of a variable in the outermost table that has one. -/
def value? : Scope → String → Option Float
  | [], _ => none
  | t :: s, name => (value? s name).or (t.value? name)

end Scope

end TweenScript
