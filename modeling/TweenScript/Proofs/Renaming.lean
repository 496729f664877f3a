import TweenScript.Proofs.Rewriting

/-!
# Renaming objects

A program names an object in one way only: by a bare name that is the first argument of a tween call
or of `Active`. Renaming these names is a rewriting that goes on in the bodies of `Then` links, so it
is the same as renaming them on the way to the host (`evaluate_rename`), the bodies being renamed
when they are registered.
-/

namespace TweenScript

/-! ## Programs -/

mutual

/-- A statement with the objects renamed, wherever it names them. -/
def Statement.rename (f : String → String) : Statement → Statement
  | .block body => .block (renameAll f body)
  | .when condition body => .when (condition.rename f) (body.rename f)
  | .expr e => .expr (e.rename f)

/-- The same of several statements. -/
def renameAll (f : String → String) : List Statement → List Statement
  | [] => []
  | s :: body => s.rename f :: renameAll f body

/-- The same of an expression. Variables are no objects. -/
def Expr.rename (f : String → String) : Expr → Expr
  | .number value => .number value
  | .variable name => .variable name
  | .conditional c yes no => .conditional (c.rename f) (yes.rename f) (no.rename f)
  | .unary op e => .unary op (e.rename f)
  | .binary op l r => .binary op (l.rename f) (r.rename f)
  | .tween chain => .tween (chain.rename f)
  | .setActive args => .setActive (renameObject f (renameArguments f args))
  | .callback => .callback

/-- The same of several expressions. -/
def renameArguments (f : String → String) : List Expr → List Expr
  | [] => []
  | e :: args => e.rename f :: renameArguments f args

/-- The same of a chain. -/
def Chain.rename (f : String → String) : Chain → Chain
  | ⟨channel, name, args, links⟩ =>
    ⟨channel, name, renameObject f (renameArguments f args), renameLinks f links⟩

/-- The same of links. -/
def renameLinks (f : String → String) : List Link → List Link
  | [] => []
  | link :: links => link.rename f :: renameLinks f links

/-- The same of a link. -/
def Link.rename (f : String → String) : Link → Link
  | .start relative args => .start relative (renameArguments f args)
  | .delay args => .delay (renameArguments f args)
  | .animate args => .animate (renameArguments f args)
  | .ease e args => .ease e (renameArguments f args)
  | .andThen body => .andThen (body.rename f)

end

variable (f : String → String)

mutual

theorem Expr.rename_eq : ∀ e : Expr, e.rename f = e.rewrite f (Statement.rename f)
  | .number _ | .variable _ | .callback => rfl
  | .conditional c yes no => by
    rw [Expr.rename, Expr.rewrite, Expr.rename_eq c, Expr.rename_eq yes, Expr.rename_eq no]
  | .unary op e => by rw [Expr.rename, Expr.rewrite, Expr.rename_eq e]
  | .binary op l r => by rw [Expr.rename, Expr.rewrite, Expr.rename_eq l, Expr.rename_eq r]
  | .tween chain => by rw [Expr.rename, Expr.rewrite, Chain.rename_eq chain]
  | .setActive args => by rw [Expr.rename, Expr.rewrite, renameArguments_eq args]

theorem renameArguments_eq : ∀ args : List Expr,
    renameArguments f args = rewriteArguments f (Statement.rename f) args
  | [] => rfl
  | e :: args => by
    rw [renameArguments, rewriteArguments, Expr.rename_eq e, renameArguments_eq args]

theorem Chain.rename_eq : ∀ chain : Chain, chain.rename f = chain.rewrite f (Statement.rename f)
  | ⟨channel, name, args, links⟩ => by
    rw [Chain.rename, Chain.rewrite, renameArguments_eq args, renameLinks_eq links]

theorem renameLinks_eq : ∀ links : List Link,
    renameLinks f links = rewriteLinks f (Statement.rename f) links
  | [] => rfl
  | link :: links => by
    rw [renameLinks, rewriteLinks, Link.rename_eq link, renameLinks_eq links]

theorem Link.rename_eq : ∀ link : Link, link.rename f = link.rewrite f (Statement.rename f)
  | .start _ args | .delay args | .animate args | .ease _ args => by
    rw [Link.rename, Link.rewrite, renameArguments_eq args]
  | .andThen _ => rfl

end

mutual

theorem Statement.rename_eq : ∀ s : Statement, s.rename f = s.rewrite f (Statement.rename f)
  | .block body => by rw [Statement.rename, Statement.rewrite, renameAll_eq body]
  | .when condition body => by
    rw [Statement.rename, Statement.rewrite, Expr.rename_eq, Statement.rename_eq body]
  | .expr e => by rw [Statement.rename, Statement.rewrite, Expr.rename_eq]

theorem renameAll_eq : ∀ body : List Statement,
    renameAll f body = rewriteAll f (Statement.rename f) body
  | [] => rfl
  | s :: body => by rw [renameAll, rewriteAll, Statement.rename_eq s, renameAll_eq body]

end

/-! ## Contexts -/

section contexts

variable {σ ο τ : Type}

/-- What a context does with objects renamed: names are renamed on their way to it, and bodies when
they are registered, in its scope. -/
def Context.renaming (c : Context σ ο τ) : Context σ ο τ where
  host :=
    { c.host with
      resolveObject := fun name => c.resolveObject (f name)
      readVariable := c.readVariable
      configure := fun t setting =>
        match setting with
        | .andThen k => c.host.configure t (.andThen ⟨k.body.rename f, c.scope⟩)
        | _ => c.host.configure t setting }
  scope := []

variable (c : Context σ ο τ)

theorem renaming_eq : c.renaming f = c.rewriting f (Statement.rename f) :=
  rfl

theorem renaming_resolveObject (name : String) :
    (c.renaming f).resolveObject name = c.resolveObject (f name) :=
  rfl

theorem renaming_readVariable (name : String) :
    (c.renaming f).readVariable name = c.readVariable name :=
  rewriting_readVariable f (Statement.rename f) c name

/-- A renamed program is evaluated as the program is where its objects are renamed. -/
theorem evaluate_rename (s : Statement) : (s.rename f).evaluate c = s.evaluate (c.renaming f) := by
  rw [Statement.rename_eq, evaluate_rewrite, renaming_eq]

end contexts

end TweenScript
