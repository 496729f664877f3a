import TweenScript.Program.Reader

/-!
# The grammar

`Spells c ts v`: the tokens `ts`, all of them and nothing else, spell the tree `v` of category `c`.
The relation is the grammar of scripts, with one constructor for each production. It looks at no
token ahead and reads nothing from left to right: parts stand side by side.

An operand of rank `n` holds operators of ranks `1` to `n` outside parentheses. The left part of an
operator has the operator's own rank and the right part the rank below, so operators of one rank
group to the left. Parentheses and plus signs leave no trace in the tree.
-/

namespace TweenScript

/-! ## Operators and links -/

/-- The operators of each rank: products, sums, orders, equalities, `&&` and `||`. -/
def operatorsOfRank : Nat → List (Operator × BinaryOp)
  | 1 => [(.star, .arithmetic .mul), (.slash, .arithmetic .div)]
  | 2 => [(.plus, .arithmetic .add), (.minus, .arithmetic .sub)]
  | 3 => [(.less, .comparison .lt), (.greater, .comparison .gt),
      (.lessEqual, .comparison .le), (.greaterEqual, .comparison .ge)]
  | 4 => [(.equal, .comparison .eq), (.notEqual, .comparison .ne)]
  | 5 => [(.and, .logical .and)]
  | 6 => [(.or, .logical .or)]
  | _ => []

theorem ofRank?_eq_some_iff {n : Nat} {op : Operator} {b : BinaryOp} :
    op.ofRank? n = some b ↔ (op, b) ∈ operatorsOfRank n := by
  constructor
  · intro h
    obtain ⟨hb, hn⟩ := Option.filter_eq_some_iff.mp h
    obtain rfl : b.rank = n := by simpa using hn
    cases op <;> cases hb <;> decide
  · intro h
    unfold operatorsOfRank at h
    split at h <;> simp only [List.mem_cons, List.not_mem_nil, or_false, Prod.mk.injEq] at h
    · rcases h with ⟨rfl, rfl⟩ | ⟨rfl, rfl⟩ <;> rfl
    · rcases h with ⟨rfl, rfl⟩ | ⟨rfl, rfl⟩ <;> rfl
    · rcases h with ⟨rfl, rfl⟩ | ⟨rfl, rfl⟩ | ⟨rfl, rfl⟩ | ⟨rfl, rfl⟩ <;> rfl
    · rcases h with ⟨rfl, rfl⟩ | ⟨rfl, rfl⟩ <;> rfl
    · obtain ⟨rfl, rfl⟩ := h
      rfl
    · obtain ⟨rfl, rfl⟩ := h
      rfl

/-- The links with arguments: what a name makes of the arguments. -/
inductive LinkName : String → (List Expr → Link) → Prop where
  | start : LinkName "From" (.start false)
  | startRelative : LinkName "FromRelative" (.start true)
  | delay : LinkName "Delay" .delay
  | animate : LinkName "Animate" .animate
  | ease {m : String × EaseMode} {f : String × EaseFamily} :
      m ∈ Ease.modes → f ∈ Ease.families →
      LinkName (Ease.mark ++ m.1 ++ f.1) (.ease ⟨f.2, m.2⟩)

/-! ## Productions -/

/-- The categories of the grammar. -/
inductive Category where
  | statement
  | statements
  | expr
  | operand (rank : Nat)
  | unary
  | call
  | primary
  /-- Arguments between commas, or none. -/
  | arguments
  /-- Arguments between commas, one or more. -/
  | items
  | links
  | link

/-- The trees of a category. -/
def Category.Tree : Category → Type
  | statement => Statement
  | statements => List Statement
  | expr | operand _ | unary | call | primary => Expr
  | arguments | items => List Expr
  | links => List Link
  | link => Link

/-- Tokens between parentheses. -/
def parenthesized (ts : List Token) : List Token :=
  .symbol .lparen :: (ts ++ [.symbol .rparen])

/-- `Spells c ts v`: the tokens `ts` spell the tree `v` of category `c`. -/
inductive Spells : (c : Category) → List Token → c.Tree → Prop where
  | block {ts : List Token} {body : List Statement} :
      Spells .statements ts body →
      Spells .statement (.symbol .lbrace :: (ts ++ [.symbol .rbrace])) (Statement.block body)
  | when {ts us : List Token} {condition : Expr} {body : Statement} :
      Spells .expr ts condition → Spells .statement us body →
      Spells .statement (.symbol .when :: (parenthesized ts ++ us)) (Statement.when condition body)
  | exprStatement {ts : List Token} {e : Expr} :
      Spells .expr ts e → Spells .statement (ts ++ [.symbol .semicolon]) (Statement.expr e)
  | noStatements : Spells .statements [] ([] : List Statement)
  | moreStatements {ts us : List Token} {s : Statement} {body : List Statement} :
      Spells .statement ts s → Spells .statements us body →
      Spells .statements (ts ++ us) (s :: body : List Statement)
  | plain {ts : List Token} {e : Expr} : Spells (.operand topRank) ts e → Spells .expr ts e
  | conditional {ts us vs : List Token} {condition yes no : Expr} :
      Spells (.operand topRank) ts condition → Spells .expr us yes → Spells .expr vs no →
      Spells .expr (ts ++ .symbol .question :: (us ++ .symbol .colon :: vs))
        (Expr.conditional condition yes no)
  | signed {ts : List Token} {e : Expr} : Spells .unary ts e → Spells (.operand 0) ts e
  | tighter {ts : List Token} {n : Nat} {e : Expr} :
      Spells (.operand n) ts e → Spells (.operand (n + 1)) ts e
  | binary {ts us : List Token} {n : Nat} {op : Operator} {b : BinaryOp} {left right : Expr} :
      (op, b) ∈ operatorsOfRank (n + 1) →
      Spells (.operand (n + 1)) ts left → Spells (.operand n) us right →
      Spells (.operand (n + 1)) (ts ++ .operator op :: us) (Expr.binary b left right)
  -- a plus sign leaves no trace
  | plus {ts : List Token} {e : Expr} :
      Spells .unary ts e → Spells .unary (.operator .plus :: ts) e
  | neg {ts : List Token} {e : Expr} :
      Spells .unary ts e → Spells .unary (.operator .minus :: ts) (Expr.unary .neg e)
  | not {ts : List Token} {e : Expr} :
      Spells .unary ts e → Spells .unary (.operator .not :: ts) (Expr.unary .not e)
  | unsigned {ts : List Token} {e : Expr} : Spells .call ts e → Spells .unary ts e
  | noCall {ts : List Token} {e : Expr} : Spells .primary ts e → Spells .call ts e
  -- the callee is any primary whose tree is a variable, so it may stand in parentheses
  | tween {ts us vs : List Token} {name : String} {channel : Channel} {args : List Expr}
      {links : List Link} :
      Spells .primary ts (Expr.variable name) → Channel.named? name = some channel →
      Spells .arguments us args → Spells .links vs links →
      Spells .call (ts ++ parenthesized us ++ vs) (Expr.tween ⟨channel, name, args, links⟩)
  | setActive {ts us : List Token} {args : List Expr} :
      Spells .primary ts (Expr.variable "Active") → Spells .arguments us args →
      Spells .call (ts ++ parenthesized us) (Expr.setActive args)
  -- the arguments of a callback have to be there, but count for nothing
  | callback {ts us : List Token} {args : List Expr} :
      Spells .primary ts (Expr.variable "Callback") → Spells .arguments us args →
      Spells .call (ts ++ parenthesized us) Expr.callback
  | number (value : Float) : Spells .primary [.number value] (Expr.number value)
  | name (name : String) : Spells .primary [.identifier name] (Expr.variable name)
  | group {ts : List Token} {e : Expr} : Spells .expr ts e → Spells .primary (parenthesized ts) e
  | noArguments : Spells .arguments [] ([] : List Expr)
  | someArguments {ts : List Token} {args : List Expr} :
      Spells .items ts args → Spells .arguments ts args
  | oneItem {ts : List Token} {e : Expr} : Spells .expr ts e → Spells .items ts ([e] : List Expr)
  | moreItems {ts us : List Token} {e : Expr} {args : List Expr} :
      Spells .expr ts e → Spells .items us args →
      Spells .items (ts ++ .symbol .comma :: us) (e :: args : List Expr)
  | noLinks : Spells .links [] ([] : List Link)
  | moreLinks {ts us : List Token} {link : Link} {links : List Link} :
      Spells .link ts link → Spells .links us links →
      Spells .links (ts ++ us) (link :: links : List Link)
  | namedLink {ts : List Token} {name : String} {make : List Expr → Link} {args : List Expr} :
      LinkName name make → Spells .arguments ts args →
      Spells .link (.symbol .dot :: .identifier name :: parenthesized ts) (make args)
  | andThen {ts : List Token} {body : Statement} :
      Spells .statement ts body →
      Spells .link (.symbol .dot :: .identifier "Then" :: parenthesized ts) (Link.andThen body)

/-- The tokens `ts` spell the program `s`: one statement is itself, any other number a block. -/
inductive SpellsProgram : List Token → Statement → Prop where
  | single {ts : List Token} {s : Statement} : Spells .statement ts s → SpellsProgram ts s
  | several {ts : List Token} {body : List Statement} :
      Spells .statements ts body → body.length ≠ 1 → SpellsProgram ts (.block body)

end TweenScript
