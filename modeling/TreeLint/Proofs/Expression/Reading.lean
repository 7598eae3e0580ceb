import TreeLint.Proofs.Expression.Tokens

/-! The expression that tokens are read as. Operands are read as far as no operator or bracket
comes between; once a bracket is closed or the tokens end, the operators take their operands,
those that bind tighter before the others and the left one before the right one. Main results: a
`~` in front of an expression complements its first operand only, and two expressions with a
binary operator between them are read as a binary expression.
-/

namespace TreeLint

/-- How tight an operator binds. -/
def Operator.precedence : Operator → Nat
  | .logicalOr => 1
  | .logicalAnd => 2
  | .or => 3
  | .xor => 4
  | .and => 5
  | .eq | .ne => 6
  | .lt | .gt | .le | .ge => 7
  | .shiftLeft | .shiftRight | .shiftRightUnsigned => 8
  | .add | .sub => 9
  | .mul | .div | .rem => 10

/-- The operators with one operand. -/
inductive UnaryOperator where
  | plus
  | minus
  | complement
  | negation
  deriving DecidableEq, Repr

mutual
/-- What a unary operator may be applied to, and may be itself. -/
inductive Operand where
  | name (text : String)
  | literal (text : String)
  | group (inside : Expression)
  | select (whole : Operand) (member : String)
  | call (callee : Operand) (arguments : List Expression)
  | create (path : List String) (arguments : List Expression)
  | unary (operator : UnaryOperator) (operand : Operand)

inductive Expression where
  | operand (operand : Operand)
  | binary (operator : Operator) (left right : Expression)
end

namespace Expression

/-- The expression is no operand, but a binary expression without brackets around it. -/
def isBinary : Expression → Bool
  | .operand _ => false
  | .binary _ _ _ => true

/-- The expression with its first operand complemented. -/
def complementFirst : Expression → Expression
  | .operand first => .operand (.unary .complement first)
  | .binary operator left right => .binary operator left.complementFirst right

/-- The expression with an operator and an operand behind it. -/
def push (operator : Operator) (last : Operand) : Expression → Expression
  | .operand first => .binary operator (.operand first) (.operand last)
  | .binary other left right =>
      if other.precedence < operator.precedence then
        .binary other left (right.push operator last)
      else
        .binary operator (.binary other left right) (.operand last)

/-- Operands with operators between them. -/
def ofChain (first : Operand) (more : List (Operator × Operand)) : Expression :=
  more.foldl (fun expression next => expression.push next.1 next.2) (.operand first)

end Expression

namespace Reading

/-- A part of an expression outside of brackets. -/
inductive Piece where
  | unary (operator : UnaryOperator)
  | operand (operand : Operand)
  | operator (operator : Operator)

/-- The operands with the operators between them, where the pieces are such. -/
def chain? : List Piece → Option (Operand × List (Operator × Operand))
  | .unary operator :: rest =>
      (chain? rest).map fun (first, more) => (.unary operator first, more)
  | [.operand first] => some (first, [])
  | .operand first :: .operator operator :: rest =>
      (chain? rest).map fun (next, more) => (first, (operator, next) :: more)
  | _ => none

/-- What stands at the end of an expression that is being read. -/
inductive Last where
  /-- An operand must follow. -/
  | nothing
  /-- After `new`, and after a dot of the name behind it. -/
  | creation (path : List String)
  | created (path : List String)
  /-- After `super`. -/
  | parent
  | operand (operand : Operand)
  | member (whole : Operand)

/-- What has been read of an expression outside of brackets, the last piece first. -/
structure Level where
  pieces : List Piece
  last : Last

namespace Level

def empty : Level :=
  { pieces := [], last := .nothing }

/-- One token more that is no bracket and no comma. -/
def step? (level : Level) : Token → Option Level
  | .name text =>
      match level.last with
      | .nothing => some { level with last := .operand (.name text) }
      | .creation path => some { level with last := .created (path ++ [text]) }
      | .member whole => some { level with last := .operand (.select whole text) }
      | _ => none
  | .literal text =>
      match level.last with
      | .nothing => some { level with last := .operand (.literal text) }
      | _ => none
  | .creation =>
      match level.last with
      | .nothing => some { level with last := .creation [] }
      | _ => none
  | .parent =>
      match level.last with
      | .nothing => some { level with last := .parent }
      | _ => none
  | .dot =>
      match level.last with
      | .created path => some { level with last := .creation path }
      | .parent => some { level with last := .member (.literal "super") }
      | .operand operand => some { level with last := .member operand }
      | _ => none
  | .complement =>
      match level.last with
      | .nothing => some { level with pieces := .unary .complement :: level.pieces }
      | _ => none
  | .negation =>
      match level.last with
      | .nothing => some { level with pieces := .unary .negation :: level.pieces }
      | _ => none
  | .operator operator =>
      match level.last, operator with
      | .nothing, .add => some { level with pieces := .unary .plus :: level.pieces }
      | .nothing, .sub => some { level with pieces := .unary .minus :: level.pieces }
      | .operand operand, _ =>
          some
            { pieces := .operator operator :: .operand operand :: level.pieces
              last := .nothing }
      | _, _ => none
  | .comma | .opening | .closing => none

/-- The expression that has been read, if it may end here. -/
def finish? (level : Level) : Option Expression :=
  match level.last with
  | .operand operand =>
      (chain? (.operand operand :: level.pieces).reverse).map fun (first, more) =>
        Expression.ofChain first more
  | _ => none

/-- Nothing has been read. -/
def isEmpty (level : Level) : Bool :=
  match level.pieces, level.last with
  | [], .nothing => true
  | _, _ => false

end Level

namespace Last

/-- A bracket may open here. -/
def opens : Last → Bool
  | .nothing | .created _ | .operand (.name _) | .operand (.select _ _) => true
  | _ => false

/-- What a pair of brackets makes, from what is between them. -/
def enclose? (inside : List Expression) : Last → Option Operand
  | .nothing =>
      match inside with
      | [expression] => some (.group expression)
      | _ => none
  | .created path => some (.create path inside)
  | .operand callee => some (.call callee inside)
  | _ => none

end Last

/-- What has been read, bracket by bracket. What is between two brackets is a level of its own,
after the expressions that end with a comma.
-/
inductive State where
  | outermost (level : Level)
  | inside (outer : State) (before : List Expression) (level : Level)

namespace State

def level : State → Level
  | .outermost level => level
  | .inside _ _ level => level

def setLast (last : Last) : State → State
  | .outermost level => .outermost { level with last }
  | .inside outer before level => .inside outer before { level with last }

/-- The expressions between two brackets, which may be none. -/
def between? (before : List Expression) (level : Level) : Option (List Expression) :=
  if before.isEmpty && level.isEmpty then some [] else level.finish?.map (before ++ [·])

/-- A bracket that closes. -/
def close? (outer : State) (before : List Expression) (level : Level) : Option State :=
  (between? before level).bind fun expressions =>
    (outer.level.last.enclose? expressions).map fun operand => outer.setLast (.operand operand)

/-- One token more. -/
def step? : State → Token → Option State
  | state, .opening => if state.level.last.opens then some (.inside state [] .empty) else none
  | .inside outer before level, .closing => close? outer before level
  | .inside outer before level, .comma =>
      level.finish?.map fun expression => .inside outer (before ++ [expression]) .empty
  | .inside outer before level, token => (level.step? token).map (.inside outer before)
  | .outermost level, token => (level.step? token).map .outermost

/-- The tokens one after the other. -/
def run? (tokens : List Token) (state : State) : Option State :=
  tokens.foldlM step? state

/-- The expression that has been read, if all brackets are closed. -/
def finish? : State → Option Expression
  | .outermost level => level.finish?
  | .inside _ _ _ => none

end State

/-- The expression that some tokens make. -/
def ofTokens? (tokens : List Token) : Option Expression :=
  (State.run? tokens (.outermost .empty)).bind State.finish?

end Reading

/-- The expression that a text is read as. -/
def Expression.ofText? (text : String) : Option Expression :=
  (Token.ofText? text).bind Reading.ofTokens?

-----------------------------------------------------------------------------------------
-- Chains of operands
-----------------------------------------------------------------------------------------

namespace Expression

/-- The first operand stays the first when another one comes. -/
theorem complementFirst_push (expression : Expression) (operator : Operator) (last : Operand)
    : expression.complementFirst.push operator last
      = (expression.push operator last).complementFirst := by
  cases expression with
  | operand first => rfl
  | binary other left right =>
      rw [complementFirst, push, push]
      split <;> rfl

/-- A complement in front of a chain is one of its first operand, by induction on the others. -/
theorem ofChain_complement (first : Operand) (more : List (Operator × Operand))
    : ofChain (.unary .complement first) more = (ofChain first more).complementFirst := by
  have pushed (expression : Expression)
      : more.foldl (fun expression next => expression.push next.1 next.2)
          expression.complementFirst
        = (more.foldl (fun expression next => expression.push next.1 next.2)
          expression).complementFirst := by
    induction more generalizing expression with
    | nil => rfl
    | cons next rest ih => rw [List.foldl_cons, List.foldl_cons, complementFirst_push, ih]
  exact pushed (.operand first)

theorem push_isBinary (expression : Expression) (operator : Operator) (last : Operand)
    : (expression.push operator last).isBinary = true := by
  cases expression with
  | operand first => rfl
  | binary other left right =>
      rw [push]
      split <;> rfl

/-- Operands with an operator between them make a binary expression. -/
theorem ofChain_isBinary (first : Operand) (before after : List (Operator × Operand))
    (next : Operator × Operand)
    : (ofChain first (before ++ next :: after)).isBinary = true := by
  have kept (expression : Expression) (isBinary : expression.isBinary = true)
      : (after.foldl (fun expression next => expression.push next.1 next.2) expression).isBinary
        = true := by
    induction after generalizing expression with
    | nil => exact isBinary
    | cons next rest ih => exact ih _ (push_isBinary expression next.1 next.2)
  rw [ofChain, List.foldl_append, List.foldl_cons]
  exact kept _ (push_isBinary _ _ _)

end Expression

namespace Reading

/-- Chains with an operator between them are a chain, by the cases of how the first one is read. -/
theorem chain?_append {front back : List Piece} {first next : Operand}
    {more rest : List (Operator × Operand)} (operator : Operator)
    (isFront : chain? front = some (first, more)) (isBack : chain? back = some (next, rest))
    : chain? (front ++ .operator operator :: back) = some (first, more ++ (operator, next) :: rest)
    := by
  fun_induction chain? front generalizing first more with
  | case1 sign pieces ih =>
      obtain ⟨⟨inner, others⟩, found, same⟩ := Option.map_eq_some_iff.mp isFront
      cases same
      rw [List.cons_append, chain?, ih found]
      rfl
  | case2 only =>
      cases isFront
      rw [List.singleton_append, chain?, isBack]
      rfl
  | case3 only other pieces ih =>
      obtain ⟨⟨inner, others⟩, found, same⟩ := Option.map_eq_some_iff.mp isFront
      cases same
      rw [List.cons_append, List.cons_append, chain?, ih found]
      rfl
  | case4 => cases isFront

-----------------------------------------------------------------------------------------
-- Pieces in front
-----------------------------------------------------------------------------------------

namespace Level

/-- What has been read behind some pieces. -/
def behind (level : Level) (pieces : List Piece) : Level :=
  { level with pieces := level.pieces ++ pieces }

/-- The pieces in front do not matter for a step. -/
theorem step?_behind (level : Level) (pieces : List Piece) (token : Token)
    : (level.behind pieces).step? token = (level.step? token).map (·.behind pieces) := by
  obtain ⟨own, last⟩ := level
  cases token with
  | operator operator => cases last <;> cases operator <;> rfl
  | _ => cases last <;> rfl

/-- What ends with an operand is the expression that the chain makes. -/
theorem finish?_of_chain {pieces : List Piece} {operand first : Operand}
    {more : List (Operator × Operand)}
    (isChain : chain? (.operand operand :: pieces).reverse = some (first, more))
    : finish? { pieces, last := .operand operand } = some (.ofChain first more) := by
  change (chain? _).map _ = _
  rw [isChain, Option.map_some]

/-- A complement in front of an expression is one of its first operand. -/
theorem finish?_behind_complement (level : Level)
    : (level.behind [.unary .complement]).finish?
      = level.finish?.map Expression.complementFirst := by
  obtain ⟨own, last⟩ := level
  cases last with
  | operand operand =>
      change ((chain? (.operand operand :: (own ++ [.unary .complement])).reverse).map _)
        = ((chain? (.operand operand :: own).reverse).map _).map _
      rw [← List.cons_append, List.reverse_append, List.reverse_singleton, List.singleton_append,
        chain?]
      cases chain? (.operand operand :: own).reverse with
      | none => rfl
      | some chain => exact congrArg some (Expression.ofChain_complement chain.1 chain.2)
  | _ => rfl

end Level

namespace State

/-- What has been read behind some pieces that stand outside of all brackets. -/
def behind (pieces : List Piece) : State → State
  | .outermost level => .outermost (level.behind pieces)
  | .inside outer before level => .inside (outer.behind pieces) before level

variable {state : State} {pieces : List Piece}

/-- A change of what has been read that keeps the end of it and all that is between brackets. -/
structure Reframes (change : State → State) : Prop where
  last : ∀ state, (change state).level.last = state.level.last
  setLast : ∀ state last, (change state).setLast last = change (state.setLast last)
  inside
    : ∀ outer before level,
        change (.inside outer before level) = .inside (change outer) before level

namespace Reframes

variable {change : State → State}

theorem step?_opening (reframes : Reframes change) (state : State)
    : (change state).step? .opening = (state.step? .opening).map change := by
  rw [step?, step?, reframes.last]
  split
  · exact congrArg some (reframes.inside state [] .empty).symm
  · rfl

/-- A bracket closes as it does without the change. -/
theorem close? (reframes : Reframes change) (outer : State) (before : List Expression)
    (level : Level)
    : close? (change outer) before level = (State.close? outer before level).map change := by
  rw [State.close?, State.close?, reframes.last]
  cases between? before level with
  | none => rfl
  | some expressions =>
      rw [Option.bind_some, Option.bind_some]
      cases outer.level.last.enclose? expressions with
      | none => rfl
      | some operand => exact congrArg some (reframes.setLast outer _)

/-- Between brackets every token is read as it is without the change. -/
theorem step?_inside (reframes : Reframes change) (outer : State) (before : List Expression)
    (level : Level) (token : Token)
    : (change (.inside outer before level)).step? token
      = (step? (.inside outer before level) token).map change := by
  cases token with
  | opening => exact reframes.step?_opening _
  | closing =>
      rw [reframes.inside]
      exact reframes.close? outer before level
  | _ =>
      rw [reframes.inside]
      change Option.map _ _ = (Option.map _ _).map change
      rw [Option.map_map]
      exact congrArg (Option.map · _) (funext fun _ => (reframes.inside _ _ _).symm)

end Reframes

/-- Pieces that stand outside of all brackets change nothing else. -/
theorem reframes_behind (pieces : List Piece) : Reframes (behind pieces) where
  last state := by cases state <;> rfl
  setLast state last := by cases state <;> rfl
  inside _ _ _ := rfl

/-- The pieces in front do not matter for a step, by cases on the brackets and on the token. -/
theorem step?_behind (token : Token)
    : (state.behind pieces).step? token = (state.step? token).map (·.behind pieces) := by
  cases state with
  | inside outer before level =>
      exact (reframes_behind pieces).step?_inside outer before level token
  | outermost level =>
      cases token with
      | opening => exact (reframes_behind pieces).step?_opening _
      | comma | closing => rfl
      | _ =>
          change ((level.behind pieces).step? _).map _ = ((level.step? _).map _).map _
          rw [Level.step?_behind, Option.map_map, Option.map_map]
          rfl

/-- The pieces in front do not matter for a run, by induction on the tokens. -/
theorem run?_behind (tokens : List Token)
    : run? tokens (state.behind pieces) = (run? tokens state).map (·.behind pieces) := by
  induction tokens generalizing state with
  | nil => rfl
  | cons token rest ih =>
      rw [run?, run?, List.foldlM_cons, List.foldlM_cons, step?_behind]
      cases state.step? token with
      | none => rfl
      | some next => exact ih

end State

/-- A complement in front of some tokens is one of the first operand of what they make. -/
theorem ofTokens?_complement (tokens : List Token)
    : ofTokens? (.complement :: tokens) = (ofTokens? tokens).map Expression.complementFirst := by
  have first : State.step? (.outermost .empty) .complement
      = some (State.behind [.unary .complement] (.outermost .empty)) := rfl
  rw [ofTokens?, ofTokens?, State.run?, List.foldlM_cons, first]
  change (State.run? tokens _).bind _ = _
  rw [State.run?_behind]
  cases State.run? tokens (.outermost .empty) with
  | none => rfl
  | some state =>
      cases state with
      | outermost level => exact level.finish?_behind_complement
      | inside outer before level => rfl

/-- What is finished is an operand behind a chain. -/
theorem finish?_chain {state : State} {expression : Expression}
    (finished : state.finish? = some expression)
    : ∃ pieces operand first more,
        state = .outermost { pieces, last := .operand operand }
        ∧ chain? (.operand operand :: pieces).reverse = some (first, more) := by
  cases state with
  | inside outer before level => cases finished
  | outermost level =>
      obtain ⟨pieces, last⟩ := level
      cases last with
      | operand operand =>
          obtain ⟨chain, isChain, _⟩ := Option.map_eq_some_iff.mp finished
          exact ⟨pieces, operand, chain.1, chain.2, rfl, isChain⟩
      | _ => cases finished

/-- What makes two expressions makes a binary one with an operator between. -/
theorem ofTokens?_operator {left right : List Token} {first second : Expression}
    (operator : Operator) (isFirst : ofTokens? left = some first)
    (isSecond : ofTokens? right = some second)
    : ∃ whole,
        ofTokens? (left ++ .operator operator :: right) = some whole ∧ whole.isBinary = true := by
  obtain ⟨leftEnd, leftRun, leftFinish⟩ := Option.bind_eq_some_iff.mp isFirst
  obtain ⟨rightEnd, rightRun, rightFinish⟩ := Option.bind_eq_some_iff.mp isSecond
  obtain ⟨front, operand, one, more, rfl, isFront⟩ := finish?_chain leftFinish
  obtain ⟨back, last, next, rest, rfl, isBack⟩ := finish?_chain rightFinish
  have between : State.step? (.outermost { pieces := front, last := .operand operand })
      (.operator operator)
        = some (State.behind (.operator operator :: .operand operand :: front)
          (.outermost .empty)) := by
    cases operator <;> rfl
  have joined := chain?_append operator isFront isBack
  refine ⟨.ofChain one (more ++ (operator, next) :: rest), ?_,
    Expression.ofChain_isBinary one more rest (operator, next)⟩
  rw [ofTokens?, State.run?, List.foldlM_append]
  change ((State.run? left _).bind _).bind _ = _
  rw [leftRun, Option.bind_some, List.foldlM_cons, between]
  change (State.run? right _).bind _ = _
  rw [State.run?_behind, rightRun]
  exact Level.finish?_of_chain (by simpa using joined)

end Reading

namespace Expression

/-- A `~` in front of a text complements the first operand of what the text is read as. -/
theorem ofText?_complement (text : String)
    : ofText? ("~" ++ text) = (ofText? text).map complementFirst := by
  rw [ofText?, ofText?, Token.ofText?_complement]
  cases Token.ofText? text with
  | none => rfl
  | some tokens => exact Reading.ofTokens?_complement tokens

/-- Two expressions with an operator between them are read as a binary expression. -/
theorem ofText?_operator {left right : String} {first second : Expression} (operator : Operator)
    (isFirst : ofText? left = some first) (isSecond : ofText? right = some second)
    : ∃ whole,
        ofText? (left ++ " " ++ operator.symbol ++ " " ++ right) = some whole
        ∧ whole.isBinary = true := by
  obtain ⟨leftTokens, leftRead, isFirst⟩ := Option.bind_eq_some_iff.mp isFirst
  obtain ⟨rightTokens, rightRead, isSecond⟩ := Option.bind_eq_some_iff.mp isSecond
  rw [ofText?, Token.ofText?_operator operator leftRead rightRead]
  exact Reading.ofTokens?_operator operator isFirst isSecond

/-- The complement of the first operand is that of the whole expression exactly if the expression
is an operand.
-/
theorem complementFirst_eq_iff (whole : Expression)
    : (∃ operand,
        whole = .operand operand
        ∧ whole.complementFirst = .operand (.unary .complement operand))
      ↔ whole.isBinary = false := by
  cases whole with
  | operand first => exact ⟨fun _ => rfl, fun _ => ⟨first, rfl, rfl⟩⟩
  | binary operator left right =>
      refine ⟨?_, fun isOperand => nomatch isOperand⟩
      rintro ⟨_, same, _⟩
      cases same

end Expression

end TreeLint
