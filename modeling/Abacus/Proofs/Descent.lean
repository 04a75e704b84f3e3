import Abacus.Proofs.Reading

/-!
# Reading by recursive descent

The parser is one pass over the tokens that keeps chains and open parentheses. The same grammar
can be read by functions that call each other: an operand, then operators of at least some
precedence, each with a right operand that is read with the next higher precedence as the least
one (`climb`); an operand is a number or, where that does not fit, a group in parentheses.

A function of the descent has more answers than the pass. It may *refuse* the tokens, so that
something else can be tried on them, which is not the same as to fail; its placeholder for an
error then only names the token that did not fit. It may also want to see more tokens. At the top
neither happens: the descent always settles, and on the same expression and the same tokens after
it, or the same error, as the pass (`settled?_climb`).

The two are related call by call (`Foretells`). Each call reads a phrase while some chains wait
outside of it. Between two operators the descent has a list of links where the pass has the chain
that waits (`Between`), and one more operator with its operand keeps it so (`Between.next`).
-/

namespace Abacus

namespace Descent

open Abacus.Expr

/-- What comes of reading the front of fewer than `bound` tokens. -/
inductive Answer (bound : Nat) where
  /-- An expression, and the tokens after it, of which there are fewer. -/
  | done (e : Expr) (rest : List Token) (shorter : rest.length < bound)
  /-- It takes more tokens to decide. -/
  | incomplete
  /-- The tokens do not fit, but they may fit something else. -/
  | refused (error : SyntaxError)
  /-- The tokens fit nothing. -/
  | failed (error : SyntaxError)

namespace Answer

variable {m n : Nat}

/-- Go on with the tokens that are left, if an expression has been read. -/
def andThen (a : Answer n)
    (next : (e : Expr) → (rest : List Token) → rest.length < n → Answer m) : Answer m :=
  match a with
  | done e rest shorter => next e rest shorter
  | incomplete => incomplete
  | refused error => refused error
  | failed error => failed error

/-- Try something else, if the tokens were refused. -/
def orElse (a b : Answer n) : Answer n :=
  match a with
  | refused _ => b
  | other => other

/-- Fail with a given error, if the tokens were refused. -/
def orFail (a : Answer n) (error : SyntaxError) : Answer n :=
  match a with
  | refused _ => failed error
  | other => other

/-- The same answer about more tokens. -/
def weaken (a : Answer m) (h : m ≤ n) : Answer n :=
  a.andThen fun e rest shorter => done e rest (Nat.lt_of_lt_of_le shorter h)

/-- The result of an answer that leaves nothing open. -/
def settled? : Answer n → Option (Except SyntaxError (Expr × List Token))
  | done e rest _ => some (.ok (e, rest))
  | failed error => some (.error error)
  | incomplete | refused _ => none

end Answer

open Answer

/-- A number; any other token is refused. -/
def number (tokens : List Token) : Answer tokens.length :=
  match tokens with
  | [] => refused (.refusal [])
  | token :: rest =>
    match token.kind with
    | .integer value => done (.literal (.int value) token.span) rest (Nat.lt_succ_self _)
    | _ => refused (.refusal (token :: rest))

/-- What is wrong with tokens that begin with no operand. -/
def operandFault : List Token → SyntaxFault
  | [] => .danglingOperator
  | token :: _ =>
    if token.kind = .invalid then .unexpectedToken token.lexeme else .missingOperand token.lexeme

/-- The end of a group: the parenthesis that closes it, or an error. -/
def close (stop : Nat) (opening : Token) (inner : Expr) (rest : List Token) : Answer rest.length :=
  match rest with
  | [] => failed (.anchor [] .unclosedParenthesis stop)
  | token :: after =>
    if token.kind = .rightParen then
      done (inner.withSpan (opening.span.cover token.span)) after (Nat.lt_succ_self _)
    else failed (.anchor (token :: after) (.afterOperand token) stop)

/-- A chain that has been read so far, made ready for one more operator. Of its own level, the
operator adds a link to it. Of another level, which is a weaker one, the operator begins a new
chain, of which this one is the first operand. -/
def regroup (first : Expr) (links : List Link) (op : Operator) : Expr × List Link :=
  if links.head?.any (·.operator.precedence ≠ op.precedence) then (.ofChain first links, [])
  else (first, links)

mutual

/-- An operand, and all operators after it that bind tight enough, with their operands. -/
def climb (settings : ParserSettings) (tokens : List Token) : Answer tokens.length :=
  (operand settings tokens).andThen fun first rest shorter =>
    (climbOn settings first [] rest).weaken shorter
termination_by (tokens.length, 2)

/-- The operators after a chain that has been read so far, with their operands. -/
def climbOn (settings : ParserSettings) (first : Expr) (links : List Link) (tokens : List Token) :
    Answer (tokens.length + 1) :=
  match tokens with
  | [] => done (.ofChain first links) [] (Nat.lt_succ_self _)
  | token :: rest =>
    match token.kind.operator? with
    | none => done (.ofChain first links) (token :: rest) (Nat.lt_succ_self _)
    | some op =>
      if op.precedence < settings.minPrecedence then
        done (.ofChain first links) (token :: rest) (Nat.lt_succ_self _)
      else
        let chain := regroup first links op
        (climb { settings with minPrecedence := op.precedence + 1 } rest).andThen
          fun operand after shorter =>
            (climbOn settings chain.1 (chain.2 ++ [⟨op, operand⟩]) after).weaken
              (by rw [List.length_cons]; omega)
termination_by (tokens.length, 0)

/-- A number or a group. What neither of them accepts is at fault. -/
def operand (settings : ParserSettings) (tokens : List Token) : Answer tokens.length :=
  ((number tokens).orElse (group settings tokens)).orFail
    (.anchor tokens (operandFault tokens) settings.stop)
termination_by (tokens.length, 1)

/-- An expression in parentheses; whatever does not begin with a parenthesis is refused. -/
def group (settings : ParserSettings) (tokens : List Token) : Answer tokens.length :=
  match tokens with
  | [] => refused (.refusal [])
  | opening :: inside =>
    if opening.kind = .leftParen then
      if settings.maxDepth ≤ settings.nesting then
        failed (.anchor (opening :: inside) (.nestingTooDeep settings.maxDepth) settings.stop)
      else
        (climb { settings with minPrecedence := 0, nesting := settings.nesting + 1 } inside).andThen
          fun inner rest shorter =>
            (close settings.stop opening inner rest).weaken (by rw [List.length_cons]; omega)
    else refused (.refusal (opening :: inside))
termination_by (tokens.length, 0)

end

end Descent

/-! ### Waiting chains of several levels -/

namespace Pending

variable {weaker phrase : Phrase}

theorem outside_outside (p : Pending) (h : weaker.level ≤ phrase.level) :
    (p.outside phrase).outside weaker = p.outside weaker := by
  cases weaker <;> cases phrase <;> first | rfl | exact absurd h (by decide)

theorem begun_outside (p : Pending) (h : weaker.level < phrase.level) :
    (p.outside phrase).begun weaker = p.begun weaker := by
  cases weaker <;> cases phrase <;> first | rfl | exact absurd h (by decide)

theorem outside_eq_of_le {p : Pending} (hp : p.outside weaker = p)
    (h : weaker.level ≤ phrase.level) : p.outside phrase = p := by
  cases weaker <;> cases phrase <;> first | (rw [← hp]; rfl) | exact absurd h (by decide)

theorem begun_eq_none_of_lt {p q : Pending} (hp : p.outside phrase = q) (hq : q.outside weaker = q)
    (h : weaker.level < phrase.level) : p.begun weaker = none := by
  rw [← begun_outside p h, hp, begun_eq_none hq]

/-- No chain between two levels has been begun: closing those inside of the weaker one is closing
those inside of the tighter one. -/
theorem closed_eq_of_le {p q : Pending} (e : Expr) (hp : p.outside phrase = q)
    (hq : q.outside weaker = q) (h : weaker.level ≤ phrase.level) :
    p.closed e weaker = p.closed e phrase := by
  induction hn : phrase.level - weaker.level generalizing weaker with
  | zero => rw [Phrase.eq_of_level_eq (show weaker.level = phrase.level by omega)]
  | succ n ih =>
    have hne : weaker ≠ .operand := by
      rintro rfl
      have := phrase.level_le_four
      rw [Phrase.level] at hn
      omega
    have hpart := Phrase.level_part hne
    calc p.closed e weaker
      _ = p.closed e weaker.part := by
        rw [closed_eq, begun_eq_none_of_lt hp hq (by omega)]
        rfl
      _ = p.closed e phrase := ih (outside_part hq) (by omega) (by omega)

end Pending

namespace Descent

open Abacus.Expr Answer Abacus.Derivation

/-! ### The pass over the tokens, and the descent -/

/-- An answer about a phrase foretells what the pass over the tokens comes to, where the chains
`p` wait outside of the phrase: the pass is where it goes on behind the expression of the phrase,
or it has failed with the same error. -/
inductive Foretells (settings : ParserSettings) (groups : List Group) (p : Pending)
    (phrase : Phrase) {n : Nat} :
    Answer n → Except SyntaxError (Expr × List Token) → Prop where
  | done {p' : Pending} {e' : Expr} {rest : List Token} {shorter : rest.length < n} :
      p'.outside phrase = p → Stops phrase rest →
      Foretells settings groups p phrase (.done (p'.closed e' phrase) rest shorter)
        (readOperator settings groups p' e' rest)
  | failed {error : SyntaxError} : Foretells settings groups p phrase (.failed error) (.error error)

namespace Foretells

variable {settings : ParserSettings} {groups outer : List Group} {p q : Pending}
  {phrase weaker : Phrase} {m n : Nat} {result : Except SyntaxError (Expr × List Token)}

/-- Both go on behind an expression. -/
theorem andThen {a : Answer n}
    {next : (e : Expr) → (rest : List Token) → rest.length < n → Answer m}
    (h : Foretells settings groups p phrase a result)
    (hnext : ∀ p' e' rest shorter, p'.outside phrase = p → Stops phrase rest →
      Foretells settings outer q weaker (next (p'.closed e' phrase) rest shorter)
        (readOperator settings groups p' e' rest)) :
    Foretells settings outer q weaker (a.andThen next) result := by
  cases h with
  | done hout hstop => exact hnext _ _ _ _ hout hstop
  | failed => exact .failed

theorem orFail {a : Answer n} (h : Foretells settings groups p phrase a result)
    (error : SyntaxError) : Foretells settings groups p phrase (a.orFail error) result := by
  cases h with
  | done hout hstop => exact .done hout hstop
  | failed => exact .failed

theorem weaken {a : Answer m} (h : Foretells settings groups p phrase a result) (hmn : m ≤ n) :
    Foretells settings groups p phrase (a.weaken hmn) result :=
  h.andThen fun _ _ _ _ hout hstop => .done hout hstop

end Foretells

/-- The settings inside of open parentheses, with another least precedence. -/
def inside (settings : ParserSettings) (groups : List Group) (floor : Nat) : ParserSettings :=
  { settings with minPrecedence := floor, nesting := settings.nesting + groups.length }

/-- The operators of at least some precedence are those of a phrase or a tighter one. -/
def IsFloorOf (floor : Nat) (phrase : Phrase) : Prop :=
  ∀ op : Operator, floor ≤ op.precedence ↔ phrase.level ≤ op.precedence

/-- The tokens do not begin with an operator of at least some precedence. -/
def StopsAt (floor : Nat) (tokens : List Token) : Prop :=
  ∀ token ∈ tokens.head?, ∀ op, token.kind = .operator op → op.precedence < floor

theorem stopsAt_iff {floor : Nat} {phrase : Phrase} (hf : IsFloorOf floor phrase)
    (tokens : List Token) : StopsAt floor tokens ↔ Stops phrase tokens := by
  simp only [StopsAt, Stops, ← Nat.not_le, hf _]

theorem isFloorOf_zero : IsFloorOf 0 .sum := fun op => by
  cases op <;> decide

theorem isFloorOf_succ (op : Operator) :
    IsFloorOf (op.precedence + 1) op.phrase.part := fun op' => by
  rw [Phrase.level_part op.phrase_ne_operand, op.level_phrase]

theorem exists_isFloorOf (floor : Nat) : ∃ phrase, IsFloorOf floor phrase := by
  rcases floor with _ | _ | _ | _ | n
  · exact ⟨.sum, isFloorOf_zero⟩
  · exact ⟨.sum, fun _ => Iff.rfl⟩
  · exact ⟨.product, fun _ => Iff.rfl⟩
  · exact ⟨.power, fun _ => Iff.rfl⟩
  · exact ⟨.operand, fun op => by cases op <;> simp [Operator.precedence, Phrase.level]⟩

section Regroup

variable {first : Expr} {links : List Link} {op : Operator}

theorem regroup_of_eq (h : ∀ link ∈ links.head?, link.operator.precedence = op.precedence) :
    regroup first links op = (first, links) := by
  cases links with
  | nil => rfl
  | cons link links => simp [regroup, h link rfl]

theorem regroup_of_ne (h : ∀ link ∈ links.head?, link.operator.precedence ≠ op.precedence) :
    regroup first links op = (.ofChain first links, []) := by
  cases links with
  | nil => rfl
  | cons link links => simp [regroup, h link rfl]

end Regroup

theorem stops_operand (tokens : List Token) : Stops .operand tokens := fun _ _ op _ => by
  cases op <;> decide

theorem exists_of_not_stopsAt {floor : Nat} {tokens : List Token} (h : ¬ StopsAt floor tokens) :
    ∃ token rest op, tokens = token :: rest ∧ token.kind = .operator op ∧
      floor ≤ op.precedence := by
  cases tokens with
  | nil => exact absurd (by simp [StopsAt]) h
  | cons token rest =>
    cases hk : token.kind with
    | operator op =>
      refine ⟨token, rest, op, rfl, hk, Nat.le_of_not_lt fun hlt => h ?_⟩
      simpa [StopsAt, hk] using hlt
    | integer _ | leftParen | rightParen | invalid => exact absurd (by simp [StopsAt, hk]) h

/-! ### The descent, case by case -/

section Cases

variable {settings : ParserSettings} {token : Token}

theorem climbOn_of_stopsAt {tokens : List Token} (hs : StopsAt settings.minPrecedence tokens)
    (first : Expr) (links : List Link) :
    climbOn settings first links tokens =
      done (.ofChain first links) tokens (Nat.lt_succ_self _) := by
  cases tokens with
  | nil => rw [climbOn]
  | cons token rest =>
    rw [climbOn]
    cases hk : token.kind with
    | operator op => exact if_pos (hs token rfl op hk)
    | integer _ | leftParen | rightParen | invalid => rfl

theorem climbOn_operator {op : Operator} (hk : token.kind = .operator op)
    (hm : settings.minPrecedence ≤ op.precedence) (first : Expr) (links : List Link)
    (rest : List Token) :
    climbOn settings first links (token :: rest) =
      (climb { settings with minPrecedence := op.precedence + 1 } rest).andThen
        fun operand after shorter =>
          (climbOn settings (regroup first links op).1
            ((regroup first links op).2 ++ [⟨op, operand⟩]) after).weaken
            (by rw [List.length_cons]; omega) := by
  rw [climbOn, hk]
  exact if_neg (Nat.not_lt.mpr hm)

theorem operand_integer {value : Int64} (hk : token.kind = .integer value) (rest : List Token) :
    operand settings (token :: rest) =
      done (.literal (.int value) token.span) rest (Nat.lt_succ_self _) := by
  rw [operand, number, hk]
  rfl

theorem operand_leftParen (hk : token.kind = .leftParen) (rest : List Token) :
    operand settings (token :: rest) =
      (group settings (token :: rest)).orFail
        (.anchor (token :: rest) (operandFault (token :: rest)) settings.stop) := by
  rw [operand, number, hk]
  rfl

theorem operand_of_not_startsOperand (hk : token.kind.startsOperand = false) (rest : List Token) :
    operand settings (token :: rest) = failed ⟨operandFault (token :: rest), token.span⟩ := by
  rw [operand, number, group]
  cases hk' : token.kind with
  | integer | leftParen => rw [hk'] at hk; cases hk
  | operator | rightParen | invalid => rfl

theorem group_of_le (hk : token.kind = .leftParen) (hd : settings.maxDepth ≤ settings.nesting)
    (rest : List Token) :
    group settings (token :: rest) =
      failed ⟨.nestingTooDeep settings.maxDepth, token.span⟩ := by
  rw [group, if_pos hk, if_pos hd]
  rfl

theorem group_of_lt (hk : token.kind = .leftParen) (hd : settings.nesting < settings.maxDepth)
    (rest : List Token) :
    group settings (token :: rest) =
      (climb { settings with minPrecedence := 0, nesting := settings.nesting + 1 } rest).andThen
        fun inner after shorter =>
          (close settings.stop token inner after).weaken (by rw [List.length_cons]; omega) := by
  rw [group, if_pos hk, if_neg (Nat.not_le.mpr hd)]

end Cases

/-! ### The pass along the descent -/

/-- Where the two stand behind an operand: `first` and `links` are what the descent has read of a
chain of `level`, and the pass holds the same chain, with nothing new begun outside of it. -/
structure Between (level : Phrase) (outer p : Pending) (e first : Expr) (links : List Link)
    (tokens : List Token) : Prop where
  outside : p.outside level = outer
  holds : HoldsChain level p e first links
  precedence : ∀ link ∈ links.head?, link.operator.precedence = level.level
  stops : Stops level.part tokens

namespace Between

variable {level phrase : Phrase} {outer p : Pending} {e first : Expr} {links : List Link}
  {tokens : List Token}

theorem operand (p : Pending) (e : Expr) (tokens : List Token) :
    Between .operand p p e e [] tokens :=
  ⟨rfl, holdsChain_nil rfl rfl, by simp, stops_operand tokens⟩

/-- No operator follows that is tighter than the chain. -/
theorem level_phrase_le (h : Between level outer p e first links tokens) {token : Token}
    {rest : List Token} {op : Operator} (ht : tokens = token :: rest)
    (hk : token.kind = .operator op) : op.phrase.level ≤ level.level := by
  have hstop := h.stops token (by rw [ht]; rfl) op hk
  rw [← op.level_phrase] at hstop
  by_cases hne : level = .operand
  · subst hne
    exact Nat.le_of_lt hstop
  · rw [Phrase.level_part hne] at hstop
    exact Nat.le_of_lt_succ hstop

/-- Complete, the two chains are the same. -/
theorem closed (h : Between level outer p e first links tokens) (ho : outer.outside phrase = outer)
    (hl : phrase.level ≤ level.level) : p.closed e phrase = ofChain first links := by
  rw [Pending.closed_eq_of_le e h.outside ho hl, Pending.closed_eq, h.holds.1]

theorem outside_eq (h : Between level outer p e first links tokens)
    (ho : outer.outside phrase = outer) (hl : phrase.level ≤ level.level) :
    p.outside phrase = outer := by
  rw [← Pending.outside_outside p hl, h.outside, ho]

/-- Ready for an operator, the two chains are the same. -/
theorem holdsChain_regroup (h : Between level outer p e first links tokens) {op : Operator}
    (ho : outer.outside op.phrase = outer) (hl : op.phrase.level ≤ level.level) :
    HoldsChain op.phrase p e (regroup first links op).1 (regroup first links op).2 ∧
      ∀ link ∈ (regroup first links op).2.head?,
        link.operator.precedence = op.phrase.level := by
  rcases Nat.eq_or_lt_of_le hl with heq | hlt
  · -- the operator goes on with the chain
    obtain rfl := Phrase.eq_of_level_eq heq
    have hprec := h.precedence
    rw [op.level_phrase] at hprec
    rw [regroup_of_eq hprec]
    exact ⟨h.holds, h.precedence⟩
  · -- the operator is weaker: the chain is complete, and none of its own level has begun
    rw [regroup_of_ne fun link hm => by rw [h.precedence link hm, ← op.level_phrase]; omega]
    refine ⟨holdsChain_nil (Pending.begun_eq_none_of_lt h.outside ho hlt) ?_, by simp⟩
    have hpart := Phrase.level_part op.phrase_ne_operand
    exact h.closed (Pending.outside_part ho) (by omega)

/-- **One operator and its operand further**, the two hold the same chain again, and it is of the
level of the operator. -/
theorem next (h : Between level outer p e first links tokens) {op : Operator}
    (ho : outer.outside op.phrase = outer) (hl : op.phrase.level ≤ level.level) {p' : Pending}
    {e' : Expr} {after : List Token} (hout : p'.outside op.phrase.part = p.push e op)
    (hs : Stops op.phrase.part after) :
    Between op.phrase outer p' e' (regroup first links op).1
      ((regroup first links op).2 ++ [⟨op, p'.closed e' op.phrase.part⟩]) after := by
  have hmem : op ∈ op.phrase.operators := Phrase.mem_operators_iff.mpr op.level_phrase.symm
  obtain ⟨hholds, hprec⟩ := h.holdsChain_regroup ho hl
  have hbegun : p'.begun op.phrase =
      some ⟨(regroup first links op).1, (regroup first links op).2.reverse, op⟩ := by
    rw [Pending.begun_eq_of_part hout, Pending.begun_push p e hmem, hholds.2]
  refine ⟨?_, holdsChain_concat hbegun rfl, ?_, hs⟩
  · rw [Pending.outside_eq_of_part hout, Pending.outside_push p e hmem, h.outside_eq ho hl]
  · cases hlinks : (regroup first links op).2 with
    | nil => simp
    | cons link _ => simpa [hlinks] using hprec

/-- Where the chain cannot go on in the phrase, the descent is done. -/
theorem foretells {settings : ParserSettings} {groups : List Group}
    (h : Between level outer p e first links tokens) (ho : outer.outside phrase = outer)
    (hl : phrase.level ≤ level.level) (hs : Stops phrase tokens) {n : Nat}
    (shorter : tokens.length < n) :
    Foretells settings groups outer phrase (.done (ofChain first links) tokens shorter)
      (readOperator settings groups p e tokens) := by
  rw [← h.closed ho hl]
  exact .done (h.outside_eq ho hl) hs

end Between

/-- The end of a group, for both: an operator cannot stand there, since the sum inside would go on
with it. -/
theorem foretells_close (settings : ParserSettings) (groups : List Group) (p p' : Pending)
    (opening : Token) (e : Expr) {tokens : List Token} (hs : Stops .sum tokens) :
    Foretells settings groups p .operand
      (close settings.stop opening (p'.closed e .sum) tokens)
      (readOperator settings (⟨p, opening.span⟩ :: groups) p' e tokens) := by
  cases tokens with
  | nil => exact .failed
  | cons token rest =>
    rw [close, readOperator]
    cases hk : token.kind with
    | rightParen =>
      exact .done rfl (stops_operand rest)
    | operator op => exact absurd (hs token rfl op hk) (by cases op <;> decide)
    | integer _ | leftParen | invalid => exact .failed

mutual

/-- A call for an expression, while chains wait outside of its phrase. -/
theorem foretells_climb (settings : ParserSettings) (groups : List Group) (p : Pending)
    {floor : Nat} {phrase : Phrase} (tokens : List Token) (hf : IsFloorOf floor phrase)
    (hp : p.outside phrase = p) (hm : groups = [] → settings.minPrecedence ≤ floor) :
    Foretells settings groups p phrase (climb (inside settings groups floor) tokens)
      (readOperand settings groups p tokens) := by
  rw [climb]
  refine (foretells_operand settings groups p floor tokens).andThen
    fun p' e rest shorter hout _ => ?_
  obtain rfl : p' = p := hout
  have hl : phrase.level ≤ Phrase.operand.level := phrase.level_le_four
  exact (foretells_climbOn settings groups rest hf hp hm hl
    (Between.operand p' e rest)).weaken shorter
termination_by (tokens.length, 2)

/-- A call for the operators after a chain. What has been read of the chain changes from call to
call, and its level only gets weaker; the chains outside of the phrase stay. -/
theorem foretells_climbOn (settings : ParserSettings) (groups : List Group) {floor : Nat}
    {phrase level : Phrase} {outer p : Pending} {e first : Expr} {links : List Link}
    (tokens : List Token) (hf : IsFloorOf floor phrase) (ho : outer.outside phrase = outer)
    (hm : groups = [] → settings.minPrecedence ≤ floor) (hl : phrase.level ≤ level.level)
    (h : Between level outer p e first links tokens) :
    Foretells settings groups outer phrase
      (climbOn (inside settings groups floor) first links tokens)
      (readOperator settings groups p e tokens) := by
  by_cases hs : StopsAt floor tokens
  · rw [climbOn_of_stopsAt hs]
    exact h.foretells ho hl ((stopsAt_iff hf tokens).mp hs) _
  · obtain ⟨token, rest, op, ht, hk, hfloor⟩ := exists_of_not_stopsAt hs
    have hrest : rest.length < tokens.length := by simp [ht]
    have hphrase : phrase.level ≤ op.phrase.level := by
      rw [op.level_phrase]
      exact (hf op).mp hfloor
    have hlevel : op.phrase.level ≤ level.level := h.level_phrase_le ht hk
    have ho' : outer.outside op.phrase = outer := Pending.outside_eq_of_le ho hphrase
    have hm' : groups = [] → settings.minPrecedence ≤ op.precedence :=
      fun hg => Nat.le_trans (hm hg) hfloor
    have hmem : op ∈ op.phrase.operators := Phrase.mem_operators_iff.mpr op.level_phrase.symm
    rw [ht, climbOn_operator hk hfloor, readOperator_operator settings p e hk hm']
    -- the operand, then the operators after it
    have hoperand := foretells_climb settings groups (p.push e op) rest (isFloorOf_succ op)
      (p.outside_part_push e hmem) (fun hg => Nat.le_succ_of_le (hm' hg))
    refine hoperand.andThen fun p' e' after shorter hout hstop => ?_
    exact (foretells_climbOn settings groups after hf ho hm hphrase
      (h.next ho' hlevel hout hstop)).weaken _
termination_by (tokens.length, 0)

/-- A call for an operand. -/
theorem foretells_operand (settings : ParserSettings) (groups : List Group) (p : Pending)
    (floor : Nat) (tokens : List Token) :
    Foretells settings groups p .operand (operand (inside settings groups floor) tokens)
      (readOperand settings groups p tokens) := by
  cases tokens with
  | nil =>
    rw [operand, readOperand, group]
    exact .failed
  | cons token rest =>
    rw [readOperand]
    cases hk : token.kind with
    | integer value =>
      rw [operand_integer hk]
      exact .done rfl (stops_operand rest)
    | leftParen =>
      rw [operand_leftParen hk]
      refine Foretells.orFail ?_ _
      by_cases hd : settings.maxDepth ≤ settings.nesting + groups.length
      · simp only [if_pos hd]
        rw [group_of_le hk hd]
        exact .failed
      · simp only [if_neg hd]
        rw [group_of_lt hk (Nat.not_le.mp hd)]
        have inner := foretells_climb settings (⟨p, token.span⟩ :: groups) .empty rest
          isFloorOf_zero rfl (by simp)
        exact inner.andThen fun p' e' after shorter _ hstop =>
          (foretells_close settings groups p p' token e' hstop).weaken _
    | operator _ | rightParen | invalid =>
      rw [operand_of_not_startsOperand (by rw [hk]; rfl), operandFault, hk]
      exact .failed
termination_by (tokens.length, 1)

end

theorem readOperator_of_stopsAt {settings : ParserSettings} {tokens : List Token}
    (hs : StopsAt settings.minPrecedence tokens) (p : Pending) (e : Expr) :
    readOperator settings [] p e tokens = .ok (p.finish e, tokens) := by
  cases tokens with
  | nil => rfl
  | cons token rest =>
    rw [readOperator]
    cases hk : token.kind with
    | operator op => exact if_pos (hs token rfl op hk)
    | integer _ | leftParen | rightParen | invalid => rfl

/-- **The descent and the pass agree**, and the descent leaves nothing open: it neither refuses the
tokens nor asks for more. -/
theorem settled?_climb (settings : ParserSettings) (tokens : List Token) :
    (climb settings tokens).settled? = some (parseLeading settings tokens) := by
  obtain ⟨phrase, hf⟩ := exists_isFloorOf settings.minPrecedence
  have hempty : Pending.empty.outside phrase = .empty := by cases phrase <;> rfl
  have h : Foretells settings [] .empty phrase (climb settings tokens)
      (parseLeading settings tokens) :=
    foretells_climb settings [] .empty tokens hf hempty (fun _ => Nat.le_refl _)
  generalize climb settings tokens = a, parseLeading settings tokens = result at h
  cases h with
  | @done p e rest _ hout hs =>
    have hclosed : p.closed e .sum = p.closed e phrase :=
      Pending.closed_eq_of_le e hout rfl phrase.one_le_level
    rw [readOperator_of_stopsAt ((stopsAt_iff hf rest).mpr hs), ← hclosed]
    rfl
  | failed => rfl

end Descent

end Abacus
