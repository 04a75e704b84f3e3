import Abacus.Proofs.Descent

/-!
# One token of lookahead

Reading an expression from the front of some tokens takes a piece of them that is not empty, and
depends on nothing but that piece and the token after it: whatever else follows, the same tokens
give the same expression. A reading that fails blames one of the tokens, or the place where they
end. In each state of the pass this carries over from the tokens after the next one to all of them
(`ReadsOn.operand_cons`, `ReadsOn.operator_cons`).

Together with the descent, which always settles, they say what can come of reading the front of
any tokens, with any least precedence and any limit (`Descent.climb_settles`).
-/

namespace Abacus

namespace Descent

open Abacus.Expr

/-- What comes of reading the front of some tokens: the expression of a piece of them, which is
the same whatever follows the token after it; or an error at one of them or at their end. -/
inductive Reads (settings : ParserSettings)
    (read : List Token → Except SyntaxError (Expr × List Token)) (tokens : List Token) :
    Except SyntaxError (Expr × List Token) → Prop where
  | done {e : Expr} {used rest : List Token} :
      tokens = used ++ rest → StopsAt settings.minPrecedence rest →
      (∀ other, other.head? = rest.head? → read (used ++ other) = .ok (e, other)) →
      Reads settings read tokens (.ok (e, rest))
  | atEnd {fault : SyntaxFault} : Reads settings read tokens (.error ⟨fault, .empty settings.stop⟩)
  | atToken {fault : SyntaxFault} {token : Token} :
      token ∈ tokens → Reads settings read tokens (.error ⟨fault, token.span⟩)

variable {settings : ParserSettings}

/-- A reading that goes past a token and then on as another one. -/
theorem Reads.cons {read next : List Token → Except SyntaxError (Expr × List Token)}
    {token : Token} {tokens : List Token} {result : Except SyntaxError (Expr × List Token)}
    (h : Reads settings next tokens result) (hstep : ∀ after, read (token :: after) = next after) :
    Reads settings read (token :: tokens) result := by
  cases h with
  | @done e used rest hused hstop hread =>
    have hcons : token :: tokens = (token :: used) ++ rest := by rw [hused, List.cons_append]
    refine .done hcons hstop fun other hother => ?_
    rw [List.cons_append, hstep, hread other hother]
  | atEnd => exact .atEnd
  | atToken hm => exact .atToken (List.mem_cons_of_mem _ hm)

/-- Where the expression ends, nothing is taken, and only the next token has been seen. -/
theorem reads_of_stopsAt {tokens : List Token} (hs : StopsAt settings.minPrecedence tokens)
    (p : Pending) (e : Expr) :
    Reads settings (readOperator settings [] p e) tokens (readOperator settings [] p e tokens) := by
  rw [readOperator_of_stopsAt hs]
  refine .done (List.nil_append tokens).symm hs fun other hother => ?_
  rw [List.nil_append]
  exact readOperator_of_stopsAt (by rwa [StopsAt, hother]) p e

/-- Some tokens are read so in every state of the pass. -/
def ReadsOn (settings : ParserSettings) (tokens : List Token) : Prop :=
  ∀ (groups : List Group) (p : Pending),
    Reads settings (readOperand settings groups p) tokens (readOperand settings groups p tokens) ∧
      ∀ e, Reads settings (readOperator settings groups p e) tokens
        (readOperator settings groups p e tokens)

theorem ReadsOn.operand_cons {rest : List Token} (h : ReadsOn settings rest) (token : Token)
    (groups : List Group) (p : Pending) :
    Reads settings (readOperand settings groups p) (token :: rest)
      (readOperand settings groups p (token :: rest)) := by
  rw [readOperand]
  cases hk : token.kind with
  | integer value => exact ((h groups p).2 _).cons fun _ => by rw [readOperand, hk]
  | leftParen =>
    by_cases hd : settings.maxDepth ≤ settings.nesting + groups.length
    · simp only [if_pos hd]
      exact .atToken (List.mem_cons_self ..)
    · simp only [if_neg hd]
      exact (h (⟨p, token.span⟩ :: groups) .empty).1.cons fun _ => by
        simp only [readOperand, hk, if_neg hd]
  | operator _ | rightParen | invalid => exact .atToken (List.mem_cons_self ..)

theorem ReadsOn.operator_cons {rest : List Token} (h : ReadsOn settings rest) (token : Token)
    (groups : List Group) (p : Pending) (e : Expr) :
    Reads settings (readOperator settings groups p e) (token :: rest)
      (readOperator settings groups p e (token :: rest)) := by
  cases groups with
  | nil =>
    by_cases hs : StopsAt settings.minPrecedence (token :: rest)
    · exact reads_of_stopsAt hs p e
    · obtain ⟨_, _, op, ht, hk, hfloor⟩ := exists_of_not_stopsAt hs
      obtain ⟨rfl, rfl⟩ := List.cons.inj ht
      have hstep (after : List Token) : readOperator settings [] p e (token :: after) =
          readOperand settings [] (p.push e op) after :=
        readOperator_operator settings p e hk (fun _ => hfloor) after
      rw [hstep]
      exact (h [] (p.push e op)).1.cons hstep
  | cons group outer =>
    rw [readOperator]
    cases hk : token.kind with
    | operator op =>
      exact (h (group :: outer) (p.push e op)).1.cons fun _ => by rw [readOperator, hk]
    | rightParen => exact ((h outer group.before).2 _).cons fun _ => by rw [readOperator, hk]
    | integer _ | leftParen | invalid => exact .atToken (List.mem_cons_self ..)

/-- **All tokens are read so**, by induction on them. -/
theorem readsOn (settings : ParserSettings) (tokens : List Token) : ReadsOn settings tokens := by
  induction tokens with
  | nil =>
    refine fun groups p => ⟨.atEnd, fun e => ?_⟩
    cases groups with
    | nil => exact reads_of_stopsAt (by simp [StopsAt]) p e
    | cons => exact .atEnd
  | cons token rest ih =>
    exact fun groups p => ⟨ih.operand_cons token groups p, ih.operator_cons token groups p⟩

theorem Answer.length_lt {n : Nat} {a : Answer n} {e : Expr} {rest : List Token}
    (h : a.settled? = some (.ok (e, rest))) : rest.length < n := by
  cases a with
  | done e' rest' shorter =>
    obtain ⟨rfl, rfl⟩ : e' = e ∧ rest' = rest := by simpa [Answer.settled?] using h
    exact shorter
  | incomplete | refused | failed => simp [Answer.settled?] at h

/-- **Reading the front of some tokens**, whatever the tokens, the least precedence and the limit.
The descent settles, so neither a refusal nor its placeholder for an error comes out of it. Either
it has read an expression from a piece of the tokens that is not empty; the operators after it are
weaker, and it depends on the piece and the token after it only. Or it has failed, at one of the
tokens or where they end. -/
theorem climb_settles (settings : ParserSettings) (tokens : List Token) :
    (climb settings tokens).settled? = some (parseLeading settings tokens) ∧
      ((∃ e used rest, parseLeading settings tokens = .ok (e, rest) ∧ tokens = used ++ rest ∧
          used ≠ [] ∧ StopsAt settings.minPrecedence rest ∧
          ∀ other, other.head? = rest.head? →
            parseLeading settings (used ++ other) = .ok (e, other)) ∨
        ∃ error, parseLeading settings tokens = .error error ∧
          (error.span = .empty settings.stop ∨ ∃ token ∈ tokens, error.span = token.span)) := by
  have hsettled := settled?_climb settings tokens
  refine ⟨hsettled, ?_⟩
  have h : Reads settings (parseLeading settings) tokens (parseLeading settings tokens) :=
    (readsOn settings tokens [] .empty).1
  generalize hr : parseLeading settings tokens = result at h
  cases h with
  | @done e used rest hused hstop hread =>
    refine .inl ⟨e, used, rest, rfl, hused, ?_, hstop, hread⟩
    rintro rfl
    have hlt := Answer.length_lt (hsettled.trans (congrArg some hr))
    rw [hused, List.nil_append] at hlt
    exact Nat.lt_irrefl _ hlt
  | atEnd => exact .inr ⟨_, rfl, .inl rfl⟩
  | atToken hm => exact .inr ⟨_, rfl, .inr ⟨_, hm, rfl⟩⟩

/-- Before a weaker operator: with products as the weakest, `2*3+4` is read up to the `+`, and so is
every other text that begins with `2*3+`. -/
theorem climb_settles_before_weaker_operator :
    let settings : ParserSettings := ⟨100, 2, 0, 5⟩
    let product : List Token :=
      [⟨.integer 2, ['2'], 1, 0⟩, ⟨.operator .mul, ['*'], 2, 1⟩, ⟨.integer 3, ['3'], 3, 2⟩]
    let plus : Token := ⟨.operator .add, ['+'], 4, 3⟩
    let rest : List Token := [plus, ⟨.integer 4, ['4'], 5, 4⟩]
    let other : List Token := [plus, ⟨.rightParen, [')'], 5, 4⟩, ⟨.invalid, ['x'], 6, 5⟩]
    let e : Expr :=
      .chain (.literal (.int 2) ⟨0, 1⟩) [⟨.mul, .literal (.int 3) ⟨2, 3⟩⟩] ⟨0, 3⟩
    parseLeading settings (product ++ rest) = .ok (e, rest) ∧ other.head? = rest.head? ∧
      parseLeading settings (product ++ other) = .ok (e, other) := by
  intro settings product plus rest other e
  have hfirst : parseLeading settings (product ++ rest) = .ok (e, rest) := rfl
  refine ⟨hfirst, rfl, ?_⟩
  obtain ⟨-, ⟨e', used, rest', h, hused, -, -, hread⟩ | ⟨error, h, -⟩⟩ :=
    climb_settles settings (product ++ rest)
  · obtain ⟨he, hrest⟩ := Prod.mk.inj (Except.ok.inj (hfirst.symm.trans h))
    rw [← hrest] at hused hread
    rw [List.append_cancel_right hused, he]
    exact hread other rfl
  · cases hfirst.symm.trans h

end Descent

end Abacus
