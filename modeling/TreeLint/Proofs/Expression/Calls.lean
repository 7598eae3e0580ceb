import TreeLint.Proofs.Expression.Reading

/-! The reading of calls on a literal. Main result: a text that puts another one between the brackets
of such a call is read as the call with a single argument exactly if the other text is read as an
expression, and then that is the argument. A bracket or a comma of the other text that belongs to the
call never leads back to such a call.
-/

namespace TreeLint

-----------------------------------------------------------------------------------------
-- Tokens before a bracket
-----------------------------------------------------------------------------------------

namespace Token

namespace Start

variable {start : Start} {c : Char}

/-- What is in quotes with one character more was in the same quotes before. -/
theorem extend?_quoted {quote : Char} {chars : List Char} {escaped : Bool}
    (extended : start.extend? c = some (.quoted quote chars escaped))
    : ∃ inside wasEscaped, start = .quoted quote inside wasEscaped := by
  cases start with
  | quoted old inside wasEscaped =>
      refine ⟨inside, wasEscaped, ?_⟩
      cases wasEscaped <;> simp only [extend?] at extended <;> split at extended <;>
        try split at extended
      all_goals simp_all
  | _ =>
      simp only [extend?] at extended
      try split at extended
      all_goals cases extended

/-- A bracket continues no token, unless that is in quotes. -/
theorem extend?_bracket (unquoted : ∀ quote chars escaped, start ≠ .quoted quote chars escaped)
    (isBracket : c = '(' ∨ c = ')')
    : start.extend? c = none := by
  cases start with
  | nothing => rfl
  | word chars => rcases isBracket with rfl | rfl <;> simp [extend?, isWordChar]
  | symbol chars =>
      have bracketless : ∀ symbol ∈ symbols,
          symbol.toList.getLast? ≠ some '(' ∧ symbol.toList.getLast? ≠ some ')' := by decide
      refine if_neg fun known => ?_
      have apart := bracketless _ (List.contains_iff_mem.mp known)
      rw [String.toList_ofList, List.getLast?_reverse, List.head?_cons] at apart
      rcases isBracket with rfl | rfl
      · exact apart.1 rfl
      · exact apart.2 rfl
  | quoted quote chars escaped => exact absurd rfl (unquoted quote chars escaped)
  | closed quote chars => rfl

theorem unquoted_of_tokens? {last : List Token} (complete : start.tokens? = some last)
    (quote : Char) (chars : List Char) (escaped : Bool)
    : start ≠ .quoted quote chars escaped := by
  rintro rfl
  cases complete

/-- A dot continues no token but a number. -/
theorem extend?_dot {last : List Token} (complete : start.tokens? = some last)
    (quoted : ∀ text, .literal text ∈ last → text.toList.head? = some '"')
    : start.extend? '.' = none := by
  cases start with
  | nothing => rfl
  | word chars =>
      refine if_neg fun continues => ?_
      rcases continues with isWord | ⟨_, number⟩
      · exact absurd isWord (by decide)
      · obtain ⟨token, isToken, rfl⟩ := Option.map_eq_some_iff.mp complete
        rw [ofWord?, List.head?_reverse, number, if_pos rfl] at isToken
        split at isToken
        · cases isToken
          have same := quoted _ List.mem_cons_self
          rw [String.toList_ofList, List.head?_reverse] at same
          rw [same] at number
          exact absurd number (by decide)
        · cases isToken
  | symbol chars =>
      have dotless : ∀ symbol ∈ symbols, symbol.toList.getLast? ≠ some '.' := by decide
      refine if_neg fun known => dotless _ (List.contains_iff_mem.mp known) ?_
      rw [String.toList_ofList, List.getLast?_reverse, List.head?_cons]
  | quoted quote chars escaped => cases complete
  | closed quote chars => rfl

end Start

namespace Progress

variable {progress next : Progress} {tokens : List Token} {text : String}

/-- What is being read in quotes is so in quotes of one of the two kinds. -/
def Quoting (progress : Progress) : Prop :=
  ∀ quote chars escaped,
    progress.start = .quoted quote chars escaped → quote = '"' ∨ quote = '\''

theorem Quoting.empty : empty.Quoting := by
  rintro quote chars escaped ⟨⟩

theorem Quoting.begin {c : Char} (begins : begin? tokens c = some next) : next.Quoting := by
  rintro quote chars escaped isQuoted
  rw [begin?] at begins
  split at begins
  · cases begins
    cases isQuoted
  split at begins
  · cases begins
    cases isQuoted
  split at begins
  · cases begins
    cases isQuoted
  split at begins
  · next isQuote =>
      cases begins
      cases isQuoted
      exact isQuote
  · obtain ⟨_, _, rfl⟩ := Option.map_eq_some_iff.mp begins
    cases isQuoted

theorem Quoting.step (quoting : progress.Quoting) {c : Char}
    (steps : progress.step? c = some next)
    : next.Quoting := by
  rw [step?] at steps
  cases extended : progress.start.extend? c with
  | some start =>
      rw [extended] at steps
      cases steps
      rintro quote chars escaped rfl
      obtain ⟨inside, wasEscaped, before⟩ := Start.extend?_quoted extended
      exact quoting quote inside wasEscaped before
  | none =>
      rw [extended] at steps
      obtain ⟨tokens, _, begins⟩ := Option.bind_eq_some_iff.mp steps
      exact .begin begins

theorem Quoting.run (quoting : progress.Quoting) {chars : List Char}
    (runs : run? chars progress = some next)
    : next.Quoting := by
  induction chars generalizing progress with
  | nil =>
      cases runs
      exact quoting
  | cons c rest ih =>
      obtain ⟨middle, steps, runs⟩ := Option.bind_eq_some_iff.mp runs
      exact ih (quoting.step steps) runs

/-- A character that continues no token follows on what has been read. -/
theorem step?_of_extend? {c : Char} (finished : progress.finish? = some tokens)
    (ends : progress.start.extend? c = none)
    : progress.step? c = begin? tokens c := by
  rw [step?, ends]
  exact congrArg (·.bind (begin? · c)) finished

/-- A bracket ends the last token, and is one. -/
theorem step?_opening (finished : progress.finish? = some tokens)
    : progress.step? '(' = some { tokens := .opening :: tokens, start := .nothing } := by
  obtain ⟨last, complete, _⟩ := Option.map_eq_some_iff.mp finished
  exact step?_of_extend? finished
    (Start.extend?_bracket (Start.unquoted_of_tokens? complete) (.inl rfl))

/-- A dot behind a text in quotes is a token. -/
theorem step?_dot (finished : progress.finish? = some [.literal text])
    (quoted : text.toList.head? = some '"')
    : progress.step? '.' = some { tokens := [.dot, .literal text], start := .nothing } := by
  obtain ⟨last, complete, whole⟩ := Option.map_eq_some_iff.mp finished
  refine step?_of_extend? finished (Start.extend?_dot complete fun other among => ?_)
  have inWhole := List.mem_append_left progress.tokens among
  rw [whole, List.mem_singleton, Token.literal.injEq] at inWhole
  exact inWhole ▸ quoted

/-- What is read to the end of a closing bracket is what was read before it, and the bracket. In
quotes, nothing is read to the end.
-/
theorem finish?_closing (quoting : progress.Quoting)
    : (progress.step? ')').bind finish? = progress.finish?.map (.closing :: ·) := by
  by_cases inQuotes : ∃ quote chars escaped, progress.start = .quoted quote chars escaped
  · obtain ⟨quote, chars, escaped, start⟩ := inQuotes
    have other : ')' ≠ quote := by
      rcases quoting quote chars escaped start with rfl | rfl <;> decide
    have unfinished : progress.finish? = none := by
      rw [finish?, start]
      rfl
    rw [unfinished, step?, start]
    cases escaped with
    | true =>
        rw [show Start.extend? ')' (.quoted quote chars true) = none from rfl]
        dsimp only
        rw [unfinished]
        rfl
    | false =>
        rw [Start.extend?, if_neg other, if_neg (by decide)]
        rfl
  · rw [step?, Start.extend?_bracket (fun quote chars escaped start =>
      inQuotes ⟨quote, chars, escaped, start⟩) (.inr rfl)]
    dsimp only
    cases progress.finish? <;> rfl

end Progress

/-- What is read of a text that is one token. -/
theorem run?_of_singleton {text : String} {token : Token} (isToken : ofText? text = some [token])
    : ∃ progress,
        Progress.run? text.toList .empty = some progress ∧ progress.finish? = some [token] := by
  obtain ⟨tokens, finished, same⟩ := Option.map_eq_some_iff.mp isToken
  obtain ⟨progress, runs, finishes⟩ := Option.bind_eq_some_iff.mp finished
  rw [List.reverse_eq_iff.mp same] at finishes
  exact ⟨progress, runs, finishes⟩

/-- The tokens of a call on a text in quotes, with a text between its brackets. -/
theorem ofText?_call {receiver text method : String} (target : String)
    (isText : ofText? receiver = some [.literal text]) (quoted : text.toList.head? = some '"')
    (isName : ofText? method = some [.name method])
    : ofText? (receiver ++ "." ++ method ++ "(" ++ target ++ ")")
      = (ofText? target).map fun tokens =>
          [.literal text, .dot, .name method, .opening] ++ tokens ++ [.closing] := by
  obtain ⟨receiverEnd, receiverRun, receiverFinish⟩ := run?_of_singleton isText
  obtain ⟨methodEnd, methodRun, methodFinish⟩ := run?_of_singleton isName
  -- What is read up to the text between the brackets.
  let front := [opening, .name method, .dot, .literal text]
  have frontRun
      : Progress.run? (receiver ++ "." ++ method ++ "(").toList .empty
        = some (Progress.empty.after front) := by
    have dotted : receiverEnd.step? '.' = some (Progress.empty.after [.dot, .literal text]) :=
      Progress.step?_dot receiverFinish quoted
    have named : (methodEnd.after [.dot, .literal text]).step? '('
        = some (Progress.empty.after front) := by
      rw [Progress.step?_after, Progress.step?_opening methodFinish]
      rfl
    have chars : (receiver ++ "." ++ method ++ "(").toList
        = receiver.toList ++ ('.' :: (method.toList ++ ['('])) := by
      simp [String.toList_append]
    rw [chars, Progress.run?_append, receiverRun, Option.bind_some, Progress.run?,
      List.foldlM_cons, dotted]
    change Progress.run? _ _ = _
    rw [Progress.run?_append, Progress.run?_after, methodRun, Option.map_some, Option.bind_some,
      Progress.run?, List.foldlM_cons, named]
    rfl
  have chars : (receiver ++ "." ++ method ++ "(" ++ target ++ ")").toList
      = (receiver ++ "." ++ method ++ "(").toList ++ (target.toList ++ [')']) := by
    simp [String.toList_append]
  rw [ofText?, ofText?, chars, Progress.run?_append, frontRun, Option.bind_some,
    Progress.run?_append, Progress.run?_after]
  cases targetRun : Progress.run? target.toList .empty with
  | none => rfl
  | some progress =>
      have closed := Progress.finish?_closing (Progress.Quoting.empty.run targetRun)
      have last : Progress.run? [')'] (progress.after front)
          = (progress.step? ')').map (·.after front) := by
        rw [Progress.run?, List.foldlM_cons, Progress.step?_after]
        cases progress.step? ')' <;> rfl
      have finishes : ((progress.step? ')').map (·.after front)).bind Progress.finish?
          = ((progress.step? ')').bind Progress.finish?).map (· ++ front) := by
        cases progress.step? ')' with
        | none => rfl
        | some next => exact Progress.finish?_after
      rw [Option.map_some, Option.bind_some, Option.bind_some, last, finishes, closed,
        Option.map_map, Option.map_map, Option.map_map]
      refine congrArg (Option.map · _) (funext fun tokens => ?_)
      simp [front]

end Token

-----------------------------------------------------------------------------------------
-- Chains with something in front
-----------------------------------------------------------------------------------------

/-- How many members and calls an operand ends with. -/
def Operand.depth : Operand → Nat
  | .select whole _ => whole.depth + 1
  | .call callee _ => callee.depth + 1
  | _ => 0

namespace Reading

/-- A chain without a unary operator in front of it and with one operand only is that operand. -/
theorem chain?_alone {pieces : List Piece} {first : Operand}
    (isChain : chain? pieces = some (first, []))
    (plain : ∀ operator operand, first ≠ .unary operator operand)
    : pieces = [.operand first] := by
  fun_cases chain? pieces with
  | case1 operator rest =>
      rw [chain?, Option.map_eq_some_iff] at isChain
      obtain ⟨chain, _, same⟩ := isChain
      exact absurd (Prod.mk.inj same).1.symm (plain operator chain.1)
  | case2 only =>
      rw [chain?, Option.some.injEq, Prod.mk.injEq] at isChain
      rw [isChain.1]
  | case3 only operator rest =>
      rw [chain?, Option.map_eq_some_iff] at isChain
      obtain ⟨chain, _, same⟩ := isChain
      cases (Prod.mk.inj same).2
  | case4 => simp_all [chain?]

/-- An expression that is one operand without a unary operator is the last one, and nothing stands
in front of it.
-/
theorem Level.finish?_alone {level : Level} {operand : Operand}
    (finished : level.finish? = some (.operand operand))
    (plain : ∀ operator inner, operand ≠ .unary operator inner)
    : level = { pieces := [], last := .operand operand } := by
  obtain ⟨pieces, last⟩ := level
  cases last with
  | operand last =>
      obtain ⟨⟨first, more⟩, isChain, same⟩ := Option.map_eq_some_iff.mp finished
      cases more with
      | nil =>
          cases same
          have alone := chain?_alone isChain plain
          rw [List.reverse_cons, List.append_eq_singleton_iff] at alone
          simp_all
      | cons next rest =>
          have isBinary := Expression.ofChain_isBinary first [] rest next
          rw [List.nil_append] at isBinary
          dsimp only at same
          rw [same] at isBinary
          cases isBinary
  | _ => cases finished

-----------------------------------------------------------------------------------------
-- What is between the brackets of a call
-----------------------------------------------------------------------------------------

namespace State

/-- What has been read, between two brackets. -/
def within : State → State → State
  | .outermost level, outer => .inside outer [] level
  | .inside other before level, outer => .inside (other.within outer) before level

variable {outer state next : State} {token : Token}

/-- Brackets around what has been read change nothing inside. -/
theorem reframes_within (outer : State) : Reframes (·.within outer) where
  last state := by cases state <;> rfl
  setLast state last := by cases state <;> rfl
  inside _ _ _ := rfl

/-- A token inside brackets is read as it is without them, unless it is a comma or a closing
bracket that belongs to these brackets. By cases on the brackets and on the token.
-/
theorem step?_within
    : (state.within outer).step? token = (state.step? token).map (·.within outer)
      ∨ ∃ level, state = .outermost level ∧ (token = .comma ∨ token = .closing) := by
  cases state with
  | inside other before level =>
      exact .inl ((reframes_within outer).step?_inside other before level token)
  | outermost level =>
      cases token with
      | opening => exact .inl ((reframes_within outer).step?_opening _)
      | comma => exact .inr ⟨level, rfl, .inl rfl⟩
      | closing => exact .inr ⟨level, rfl, .inr rfl⟩
      | _ =>
          left
          change (level.step? _).map _ = ((level.step? _).map _).map _
          rw [Option.map_map]
          rfl

/-- Outside of all brackets, neither a comma nor a closing bracket can follow. -/
theorem step?_outermost {level : Level} (ends : token = .comma ∨ token = .closing)
    : (outermost level).step? token = none := by
  rcases ends with rfl | rfl <;> rfl

end State

/-- What has been read of a call up to its brackets. -/
def called (callee : Operand) : State :=
  .outermost { pieces := [], last := .operand callee }

/-- No bracket that closes from here on makes a call on the operand with one argument alone: something
stands in front, the operand is part of a longer one, or the call has several arguments.
-/
def Level.Beyond (callee : Operand) (level : Level) : Prop :=
  level.pieces ≠ []
  ∨ ∃ operand,
      callee.depth < operand.depth
      ∧ (level.last = .operand operand ∨ level.last = .member operand)

@[inherit_doc Level.Beyond]
def State.Beyond (callee : Operand) : State → Prop
  | .outermost level => level.Beyond callee
  | .inside outer before _ => (outer = called callee ∧ before ≠ []) ∨ outer.Beyond callee

variable {callee : Operand}

/-- A token takes nothing away that is in front. -/
theorem Level.step?_pieces {level next : Level} {token : Token}
    (steps : level.step? token = some next) (inFront : level.pieces ≠ [])
    : next.pieces ≠ [] := by
  obtain ⟨pieces, last⟩ := level
  cases token with
  | operator operator => cases last <;> cases operator <;> cases steps <;> simp_all
  | _ => cases last <;> cases steps <;> simp_all

/-- A token makes an operand longer, or stands behind it. -/
theorem Level.step?_operand {level next : Level} {token : Token} {operand : Operand}
    (steps : level.step? token = some next)
    (ends : level.last = .operand operand ∨ level.last = .member operand)
    : next.pieces ≠ []
      ∨ ∃ longer,
          operand.depth ≤ longer.depth
          ∧ (next.last = .operand longer ∨ next.last = .member longer) := by
  obtain ⟨pieces, last⟩ := level
  rcases ends with rfl | rfl
  · cases token with
    | dot =>
        cases steps
        exact .inr ⟨operand, Nat.le_refl _, .inr rfl⟩
    | operator operator =>
        cases steps
        exact .inl (List.cons_ne_nil _ _)
    | _ => cases steps
  · cases token with
    | name text =>
        cases steps
        exact .inr ⟨.select operand text, Nat.le_succ _, .inl rfl⟩
    | _ => cases steps

theorem Level.Beyond.step {level next : Level} {token : Token} (beyond : level.Beyond callee)
    (steps : level.step? token = some next)
    : next.Beyond callee := by
  rcases beyond with inFront | ⟨operand, deep, ends⟩
  · exact .inl (step?_pieces steps inFront)
  · refine (step?_operand steps ends).imp id fun ⟨longer, atLeast, ends⟩ => ?_
    exact ⟨longer, Nat.lt_of_lt_of_le deep atLeast, ends⟩

namespace State

variable {state next : State} {token : Token}

/-- Brackets that close leave what is in front, and make an operand longer. -/
theorem Beyond.setLast {operand : Operand} {inside : List Expression}
    (beyond : state.Beyond callee)
    (encloses : state.level.last.enclose? inside = some operand)
    : (state.setLast (.operand operand)).Beyond callee := by
  cases state with
  | outermost level =>
      refine beyond.imp id fun ⟨shorter, deep, ends⟩ => ⟨operand, ?_, .inl rfl⟩
      change level.last.enclose? inside = some operand at encloses
      rcases ends with ends | ends
      · rw [ends] at encloses
        cases encloses
        exact Nat.lt_succ_of_lt deep
      · rw [ends] at encloses
        cases encloses
  | inside outer before level => exact beyond

/-- No token leads back. By cases on the token and on the brackets. -/
theorem Beyond.step (beyond : state.Beyond callee) (steps : state.step? token = some next)
    : next.Beyond callee := by
  cases token with
  | opening =>
      rw [step?] at steps
      split at steps
      · cases steps
        exact .inr beyond
      · cases steps
  | closing =>
      cases state with
      | outermost level => cases steps
      | inside outer before level =>
          obtain ⟨expressions, _, closes⟩ := Option.bind_eq_some_iff.mp steps
          obtain ⟨operand, encloses, rfl⟩ := Option.map_eq_some_iff.mp closes
          rcases beyond with ⟨rfl, _⟩ | beyond
          · cases encloses
            exact .inr ⟨_, Nat.lt_succ_self _, .inl rfl⟩
          · exact beyond.setLast encloses
  | comma =>
      cases state with
      | outermost level => cases steps
      | inside outer before level =>
          obtain ⟨expression, _, rfl⟩ := Option.map_eq_some_iff.mp steps
          exact beyond.imp_left (And.imp_right fun _ => by simp)
  | _ =>
      cases state with
      | outermost level =>
          obtain ⟨after, continues, rfl⟩ := Option.map_eq_some_iff.mp steps
          exact Level.Beyond.step beyond continues
      | inside outer before level =>
          obtain ⟨after, _, rfl⟩ := Option.map_eq_some_iff.mp steps
          exact beyond

/-- A comma or a closing bracket that belongs to the call leads away from one argument alone. -/
theorem Beyond.of_ends {level : Level} (ends : token = .comma ∨ token = .closing)
    (steps : ((outermost level).within (called callee)).step? token = some next)
    : next.Beyond callee := by
  rcases ends with rfl | rfl
  · obtain ⟨expression, _, rfl⟩ := Option.map_eq_some_iff.mp steps
    exact .inl ⟨rfl, List.cons_ne_nil _ _⟩
  · obtain ⟨expressions, _, closes⟩ := Option.bind_eq_some_iff.mp steps
    obtain ⟨operand, encloses, rfl⟩ := Option.map_eq_some_iff.mp closes
    cases encloses
    exact .inr ⟨_, Nat.lt_succ_self _, .inl rfl⟩

/-- What is read without a call is read so between its brackets. By induction on the tokens. -/
theorem run?_within {tokens : List Token} (outer : State) (runs : run? tokens state = some next)
    : run? tokens (state.within outer) = some (next.within outer) := by
  induction tokens generalizing state with
  | nil =>
      cases runs
      rfl
  | cons token rest ih =>
      obtain ⟨middle, steps, more⟩ := Option.bind_eq_some_iff.mp runs
      have inside : (state.within outer).step? token = some (middle.within outer) := by
        rcases @step?_within outer state token with same | ⟨level, rfl, ends⟩
        · rw [same, steps, Option.map_some]
        · rw [step?_outermost ends] at steps
          cases steps
      rw [run?, List.foldlM_cons, inside]
      exact ih more

theorem Beyond.run {tokens : List Token} (beyond : state.Beyond callee)
    (runs : run? tokens state = some next)
    : next.Beyond callee := by
  induction tokens generalizing state with
  | nil =>
      cases runs
      exact beyond
  | cons token rest ih =>
      obtain ⟨middle, steps, more⟩ := Option.bind_eq_some_iff.mp runs
      exact ih (beyond.step steps) more

/-- What is read between the brackets of a call is read so without the call, or leads away from one
argument alone. By induction on the tokens.
-/
theorem run?_of_within {tokens : List Token}
    (runs : run? tokens (state.within (called callee)) = some next)
    : (∃ own, run? tokens state = some own ∧ next = own.within (called callee))
      ∨ next.Beyond callee := by
  induction tokens generalizing state with
  | nil =>
      cases runs
      exact .inl ⟨state, rfl, rfl⟩
  | cons token rest ih =>
      obtain ⟨middle, steps, more⟩ := Option.bind_eq_some_iff.mp runs
      rcases @step?_within (called callee) state token with same | ⟨level, rfl, ends⟩
      · obtain ⟨own, ownSteps, rfl⟩ := Option.map_eq_some_iff.mp (same ▸ steps)
        refine (ih more).imp (fun ⟨last, ownRuns, same⟩ => ⟨last, ?_, same⟩) id
        rw [run?, List.foldlM_cons, ownSteps]
        exact ownRuns
      · exact .inr ((Beyond.of_ends ends steps).run more)

/-- What is between two brackets is one expression alone exactly if no comma stands there. -/
theorem between?_singleton {before : List Expression} {level : Level} {argument : Expression}
    : between? before level = some [argument]
      ↔ before = [] ∧ level.finish? = some argument := by
  rw [between?]
  cases before with
  | nil =>
      cases isEmpty : level.isEmpty with
      | true =>
          have unfinished : level.finish? = none := by
            obtain ⟨pieces, last⟩ := level
            cases pieces <;> cases last <;> first | rfl | cases isEmpty
          simp [unfinished]
      | false => simp
  | cons first rest => simp

/-- A bracket that closes does not make a call with one argument alone where that is out of reach. -/
theorem Beyond.finish? {argument : Expression} (beyond : state.Beyond callee)
    (closes : state.step? .closing = some next)
    : next.finish? ≠ some (.operand (.call callee [argument])) := by
  intro finished
  cases state with
  | outermost level => cases closes
  | inside outer before level =>
      obtain ⟨expressions, between, encloses⟩ := Option.bind_eq_some_iff.mp closes
      obtain ⟨operand, encloses, rfl⟩ := Option.map_eq_some_iff.mp encloses
      rcases beyond with ⟨rfl, several⟩ | beyond
      · cases encloses
        cases finished
        exact several (between?_singleton.mp between).1
      · cases outer with
        | inside outer before level => cases finished
        | outermost level =>
            obtain ⟨pieces, last⟩ := level
            have alone : ({ pieces, last := .operand operand } : Level)
                = { pieces := [], last := .operand (.call callee [argument]) } :=
              Level.finish?_alone finished (by rintro _ _ ⟨⟩)
            cases alone
            rcases beyond with inFront | ⟨longer, deep, ends⟩
            · exact inFront rfl
            · rcases ends with rfl | rfl
              · cases encloses
                exact absurd deep (Nat.lt_irrefl _)
              · cases encloses

/-- A bracket that closes makes a call of what has been read between the brackets exactly if that is
an expression.
-/
theorem closing_within {argument : Expression}
    : ((state.within (called callee)).step? .closing).bind State.finish?
        = some (.operand (.call callee [argument]))
      ↔ state.finish? = some argument := by
  cases state with
  | outermost level =>
      change ((between? [] level).bind fun expressions =>
        some (called (.call callee expressions))).bind State.finish? = _ ↔ level.finish? = _
      have single := @between?_singleton [] level argument
      cases between : between? [] level with
      | none => simp_all
      | some expressions =>
          rw [between, Option.some.injEq] at single
          change some (Expression.operand (.call callee expressions)) = _ ↔ _
          simp_all
  | inside outer before level =>
      refine iff_of_false (fun made => ?_) nofun
      obtain ⟨next, closes, finished⟩ := Option.bind_eq_some_iff.mp made
      obtain ⟨expressions, _, encloses⟩ := Option.bind_eq_some_iff.mp closes
      obtain ⟨operand, _, rfl⟩ := Option.map_eq_some_iff.mp encloses
      rw [(reframes_within _).setLast] at finished
      cases outer <;> cases finished

end State

/-- The tokens of a call with some tokens between its brackets make a call with one argument alone
exactly if those tokens make an expression, which is the argument then.
-/
theorem ofTokens?_call {text method : String} {tokens : List Token} {argument : Expression}
    : ofTokens? ([.literal text, .dot, .name method, .opening] ++ tokens ++ [.closing])
        = some (.operand (.call (.select (.literal text) method) [argument]))
      ↔ ofTokens? tokens = some argument := by
  have opened : ofTokens? ([.literal text, .dot, .name method, .opening] ++ tokens ++ [.closing])
      = ((State.run? tokens
          ((State.outermost .empty).within (called (.select (.literal text) method)))).bind
          (·.step? .closing)).bind State.finish? := by
    have closes : State.run? [.closing] = (·.step? .closing) :=
      funext fun state => Option.bind_fun_some (state.step? .closing)
    rw [ofTokens?, State.run?, List.foldlM_append, List.foldlM_append]
    change ((State.run? tokens _).bind (State.run? [.closing])).bind _ = _
    rw [closes]
    rfl
  rw [opened, ofTokens?, Option.bind_assoc]
  constructor
  · intro made
    obtain ⟨last, runs, closes⟩ := Option.bind_eq_some_iff.mp made
    rcases State.run?_of_within runs with ⟨own, ownRuns, rfl⟩ | beyond
    · rw [ownRuns, Option.bind_some]
      exact State.closing_within.mp closes
    · obtain ⟨next, closes, finished⟩ := Option.bind_eq_some_iff.mp closes
      exact absurd finished (beyond.finish? closes)
  · intro made
    obtain ⟨last, runs, finished⟩ := Option.bind_eq_some_iff.mp made
    rw [State.run?_within _ runs, Option.bind_some]
    exact State.closing_within.mpr finished

end Reading

/-- A call on a literal in quotes is read as the call with a single argument exactly if the text
between its brackets is read as an expression, which is the argument then.
-/
theorem Expression.ofText?_call_iff {receiver text method target : String} {argument : Expression}
    (isText : Token.ofText? receiver = some [.literal text]) (quoted : text.toList.head? = some '"')
    (isName : Token.ofText? method = some [.name method])
    : Expression.ofText? (receiver ++ "." ++ method ++ "(" ++ target ++ ")")
        = some (.operand (.call (.select (.literal text) method) [argument]))
      ↔ Expression.ofText? target = some argument := by
  rw [Expression.ofText?, Expression.ofText?, Token.ofText?_call target isText quoted isName]
  cases Token.ofText? target with
  | none => simp
  | some tokens => exact Reading.ofTokens?_call

end TreeLint
