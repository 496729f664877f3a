/-!
# Commands

What the program can be asked to do.
-/

namespace TweenScript

/-- Where a script is found. -/
inductive Source where
  /-- In the asset that a file holds. -/
  | asset (path : String)
  | script (text : String)
  deriving DecidableEq, Repr

/-- Something to do. -/
inductive Command where
  /-- Says whether a script is one. -/
  | check (source : Source)
  /-- Lists the tokens of a text. -/
  | tokens (text : String)
  /-- Shows the tree of a script. -/
  | tree (source : Source)
  /-- Shows both views of an expression. -/
  | eval (text : String) (bindings : List (String × Float))
  /-- Runs the asset that a file holds on a recorder and shows the trace, perhaps after all that
  plays is complete. -/
  | run (path : String) (complete : Bool)
  deriving DecidableEq

/-- What the program is asked for. -/
inductive Request where
  | help
  | version
  | perform (verbose : Bool) (command : Command)
  deriving DecidableEq

end TweenScript
