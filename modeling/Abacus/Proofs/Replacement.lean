import Abacus.Proofs.Interchange
import Abacus.Proofs.Undefined

/-!
# Replacing a part of a text

If a part of a text in parentheses is replaced by one that has the same value, the text has the same
value as before, or fails with an error of the same kind (`Calculator.evaluate_replaced_group`). It
does not matter whether there are powers in one part and none in the other, and so not how much of
the text is taken apart when its powers are reduced.

The parser does not look into the operands either. It puts them into chains, and gives them other
spans, and that is all. So it respects every relation between expressions that is respected by these
two (`IsCongruence`): if two texts have the same tokens but for operands that are related, they are
read as expressions that are related (`parse_related`). To be interchangeable is such a relation.
-/

namespace Abacus

namespace Expr

/-- The relation is kept by everything that the parser does with operands. -/
structure IsCongruence (R : Expr → Expr → Prop) : Prop where
  literal : ∀ value span span', R (.literal value span) (.literal value span')
  withSpan : ∀ {e e'}, R e e' → ∀ span span', R (e.withSpan span) (e'.withSpan span')
  ofChain : ∀ {first first' links links'}, R first first' → LinksRelated R links links' →
    R (ofChain first links) (ofChain first' links')

variable {R : Expr → Expr → Prop} {pow : Binary64 → Binary64 → Binary64}

theorem isCongruence_interchangeable : IsCongruence (Interchangeable pow) where
  literal := .literal
  withSpan := .withSpan
  ofChain := by
    intro first first' links links' hf hl
    cases hl with
    | nil => exact hf
    | cons hlink hrest =>
      obtain ⟨s, hs⟩ := exists_ofChain_eq first (List.cons_ne_nil _ _)
      obtain ⟨s', hs'⟩ := exists_ofChain_eq first' (List.cons_ne_nil _ _)
      rw [hs, hs']
      exact hf.chain (.cons hlink hrest) s s'

/-! ### States of the parser -/

/-- The same chain waits in both, or none in either. -/
inductive ChainsRelated (R : Expr → Expr → Prop) : Option OpenChain → Option OpenChain → Prop where
  | none : ChainsRelated R none none
  | some {first first' : Expr} {links links' : List Link} {op : Operator} :
      R first first' → LinksRelated R links links' →
      ChainsRelated R (some ⟨first, links, op⟩) (some ⟨first', links', op⟩)

/-- The same chains wait in both. -/
structure PendingRelated (R : Expr → Expr → Prop) (p p' : Pending) : Prop where
  sum : ChainsRelated R p.sum p'.sum
  product : ChainsRelated R p.product p'.product
  power : ChainsRelated R p.power p'.power

/-- The same chains wait outside of each open parenthesis. -/
def GroupsRelated (R : Expr → Expr → Prop) : List Group → List Group → Prop :=
  List.Forall₂ fun group group' => PendingRelated R group.before group'.before

theorem pendingRelated_empty : PendingRelated R .empty .empty := ⟨.none, .none, .none⟩

section

variable (hR : IsCongruence R) {e e' : Expr}

include hR in
theorem related_close {chain? chain?' : Option OpenChain} (h : ChainsRelated R chain? chain?')
    (he : R e e') : R (OpenChain.close chain? e) (OpenChain.close chain?' e') := by
  cases h with
  | none => exact he
  | some hf hl => exact hR.ofChain hf (List.rel_reverse (.cons ⟨rfl, he⟩ hl))

theorem chainsRelated_extend {chain? chain?' : Option OpenChain}
    (h : ChainsRelated R chain? chain?') (he : R e e') (op : Operator) :
    ChainsRelated R (some (OpenChain.extend chain? e op)) (some (OpenChain.extend chain?' e' op)) := by
  cases h with
  | none => exact .some he .nil
  | some hf hl => exact .some hf (.cons ⟨rfl, he⟩ hl)

variable {p p' : Pending} (hp : PendingRelated R p p')

include hR hp in
theorem related_finish (he : R e e') : R (p.finish e) (p'.finish e') :=
  related_close hR hp.sum (related_close hR hp.product (related_close hR hp.power he))

include hR hp in
theorem pendingRelated_push (he : R e e') (op : Operator) :
    PendingRelated R (p.push e op) (p'.push e' op) := by
  cases op with
  | pow => exact ⟨hp.sum, hp.product, chainsRelated_extend hp.power he _⟩
  | mul | div =>
    exact ⟨hp.sum, chainsRelated_extend hp.product (related_close hR hp.power he) _, .none⟩
  | add | sub =>
    exact ⟨chainsRelated_extend hp.sum
      (related_close hR hp.product (related_close hR hp.power he)) _, .none, .none⟩

end

/-! ### Reading in lockstep -/

open Abacus.Derivation

/-- Tokens of the same kinds, but for operands that are read as related expressions. -/
inductive TokensRelated (R : Expr → Expr → Prop) : List Token → List Token → Prop where
  | nil : TokensRelated R [] []
  | token {token token' : Token} {rest rest' : List Token} :
      token'.kind = token.kind → TokensRelated R rest rest' →
      TokensRelated R (token :: rest) (token' :: rest')
  | operand {d d' : Derivation} {rest rest' : List Token} :
      IsA .operand d → IsA .operand d' → R d.expr d'.expr → TokensRelated R rest rest' →
      TokensRelated R (d.tokens ++ rest) (d'.tokens ++ rest')

theorem tokensRelated_of_map_kind {tokens tokens' : List Token}
    (h : tokens'.map Token.kind = tokens.map Token.kind) {rest rest' : List Token}
    (hrest : TokensRelated R rest rest') : TokensRelated R (tokens ++ rest) (tokens' ++ rest') := by
  induction tokens generalizing tokens' with
  | nil =>
    obtain rfl := List.map_eq_nil_iff.mp h
    exact hrest
  | cons token tokens ih =>
    obtain ⟨token', tokens', rfl, hk, h⟩ := List.map_eq_cons_iff.mp h
    exact .token hk (ih h)

/-- Each open parenthesis is a token. -/
theorem depth_le_length_tokens {phrase : Phrase} {d : Derivation} (h : IsA phrase d) :
    d.depth ≤ d.tokens.length := by
  induction h with
  | number hk => simp [depth]
  | group ho hi hc ih => simp only [depth, tokens, List.length_cons, List.length_append]; omega
  | @repetition phrase first steps hne hf hs hp ihf ihs =>
    have hsteps : stepDepth steps ≤ (stepTokens steps).length := by
      clear hs hp
      induction steps with
      | nil => simp [stepDepth]
      | cons step rest ih =>
        obtain ⟨token, op, part⟩ := step
        rw [List.forall_mem_cons] at ihs
        have hrest := ih ihs.2
        have hpart : part.depth ≤ part.tokens.length := ihs.1
        rw [stepDepth, stepTokens, List.length_cons, List.length_append]
        omega
    rw [depth, tokens, List.length_append]
    omega

/-- An operand cannot follow an operand. -/
theorem readOperator_operand_ne_ok {d : Derivation} (h : IsA .operand d) {settings : ParserSettings}
    {groups : List Group} {p : Pending} {a e : Expr} {rest : List Token} :
    readOperator settings groups p a (d.tokens ++ rest) ≠ .ok (e, []) := by
  cases h with
  | number hk => cases groups <;> simp [tokens, readOperator, hk]
  | group ho _ _ => cases groups <;> simp [tokens, readOperator, ho]
  | repetition hne => exact absurd rfl hne

/-- From states that are related, two lists of tokens are read as expressions that are related, if
both are read, and with a limit that no parenthesis reaches. -/
def ReadAlike (R : Expr → Expr → Prop) (limit stop stop' : Nat) (tokens tokens' : List Token) :
    Prop :=
  ∀ ⦃groups groups' : List Group⦄, GroupsRelated R groups groups' →
    groups.length + tokens.length ≤ limit → groups'.length + tokens'.length ≤ limit →
    ∀ ⦃p p' : Pending⦄, PendingRelated R p p' →
      (∀ e e', readOperand ⟨limit, 0, 0, stop⟩ groups p tokens = .ok (e, []) →
        readOperand ⟨limit, 0, 0, stop'⟩ groups' p' tokens' = .ok (e', []) → R e e') ∧
      ∀ a a', R a a' → ∀ e e', readOperator ⟨limit, 0, 0, stop⟩ groups p a tokens = .ok (e, []) →
        readOperator ⟨limit, 0, 0, stop'⟩ groups' p' a' tokens' = .ok (e', []) → R e e'

section

variable (hR : IsCongruence R) {limit stop stop' : Nat}

include hR in
theorem readAlike_nil : ReadAlike R limit stop stop' [] [] := by
  intro groups groups' hg _ _ p p' hp
  constructor
  · intro e e' h
    cases h
  · intro a a' ha e e' h h'
    cases hg with
    | nil =>
      obtain ⟨rfl, -⟩ := Prod.mk.inj (Except.ok.inj h)
      obtain ⟨rfl, -⟩ := Prod.mk.inj (Except.ok.inj h')
      exact related_finish hR hp ha
    | cons => cases h

section

variable {token token' : Token} {rest rest' : List Token} (hk : token'.kind = token.kind)
  (hrest : ReadAlike R limit stop stop' rest rest') {groups groups' : List Group}
  (hg : GroupsRelated R groups groups') (hl : groups.length + (rest.length + 1) ≤ limit)
  (hl' : groups'.length + (rest'.length + 1) ≤ limit) {p p' : Pending}
  (hp : PendingRelated R p p')

include hR hk hrest hg hl hl' hp

/-- Where an operand is due, a token begins one, or nothing is read. -/
theorem related_readOperand_token {e e' : Expr}
    (h : readOperand ⟨limit, 0, 0, stop⟩ groups p (token :: rest) = .ok (e, []))
    (h' : readOperand ⟨limit, 0, 0, stop'⟩ groups' p' (token' :: rest') = .ok (e', [])) :
    R e e' := by
  rw [readOperand] at h h'
  rw [hk] at h'
  cases hkind : token.kind with
  | integer value =>
    rw [hkind] at h h'
    exact (hrest hg (by omega) (by omega) hp).2 _ _ (hR.literal _ _ _) e e' h h'
  | leftParen =>
    rw [hkind] at h h'
    simp only at h h'
    rw [if_neg (by omega)] at h h'
    exact (hrest (.cons hp hg) (by rw [List.length_cons]; omega) (by rw [List.length_cons]; omega)
      pendingRelated_empty).1 e e' h h'
  | operator | rightParen | invalid =>
    rw [hkind] at h
    cases h

/-- Where an operator is due, a token is one or closes a parenthesis, or nothing is read. -/
theorem related_readOperator_token {a a' : Expr} (ha : R a a') {e e' : Expr}
    (h : readOperator ⟨limit, 0, 0, stop⟩ groups p a (token :: rest) = .ok (e, []))
    (h' : readOperator ⟨limit, 0, 0, stop'⟩ groups' p' a' (token' :: rest') = .ok (e', [])) :
    R e e' := by
  cases hg with
  | nil =>
    rw [readOperator] at h h'
    rw [hk] at h'
    cases hkind : token.kind with
    | operator op =>
      rw [hkind] at h h'
      simp only [Nat.not_lt_zero, if_false] at h h'
      exact (hrest .nil (by omega) (by omega) (pendingRelated_push hR hp ha op)).1 e e' h h'
    | integer | leftParen | rightParen | invalid =>
      rw [hkind] at h
      cases h
  | @cons group group' outer outer' hgroup houter =>
    rw [readOperator] at h h'
    rw [hk] at h'
    rw [List.length_cons] at hl hl'
    cases hkind : token.kind with
    | operator op =>
      rw [hkind] at h h'
      exact (hrest (.cons hgroup houter) (by rw [List.length_cons]; omega)
        (by rw [List.length_cons]; omega) (pendingRelated_push hR hp ha op)).1 e e' h h'
    | rightParen =>
      rw [hkind] at h h'
      exact (hrest houter (by omega) (by omega) hgroup).2 _ _
        (hR.withSpan (related_finish hR hp ha) _ _) e e' h h'
    | integer | leftParen | invalid =>
      rw [hkind] at h
      cases h

end

/-- Operands are read along their derivations, which leads to states that are related. -/
theorem readAlike_operand {d d' : Derivation} (hd : IsA .operand d) (hd' : IsA .operand d')
    (hdd : R d.expr d'.expr) {rest rest' : List Token}
    (hrest : ReadAlike R limit stop stop' rest rest') :
    ReadAlike R limit stop stop' (d.tokens ++ rest) (d'.tokens ++ rest') := by
  intro groups groups' hg hl hl' p p' hp
  constructor
  · intro e e' h h'
    have hdepth := depth_le_length_tokens hd
    have hdepth' := depth_le_length_tokens hd'
    rw [List.length_append] at hl hl'
    obtain ⟨q, a, rfl, ha, hread⟩ := @readsAs_of_isA ⟨limit, 0, 0, stop⟩ _ d hd groups p
      rest rfl (by simp only; omega) (fun _ => Nat.zero_le _)
    obtain ⟨q', a', rfl, ha', hread'⟩ := @readsAs_of_isA ⟨limit, 0, 0, stop'⟩ _ d' hd'
      groups' p' rest' rfl (by simp only; omega) (fun _ => Nat.zero_le _)
    rw [hread] at h
    rw [hread'] at h'
    have haa : R a a' := by
      rwa [show a = d.expr from ha, show a' = d'.expr from ha']
    exact (hrest hg (by omega) (by omega) hp).2 a a' haa e e' h h'
  · intro a a' _ e e' h
    exact absurd h (readOperator_operand_ne_ok hd)

include hR in
/-- **The parser respects congruences**: tokens that are related are read alike. -/
theorem readAlike_of_tokensRelated {tokens tokens' : List Token} (ht : TokensRelated R tokens tokens') :
    ReadAlike R limit stop stop' tokens tokens' := by
  induction ht with
  | nil => exact readAlike_nil hR
  | token hk _ ih =>
    intro groups groups' hg hl hl' p p' hp
    exact ⟨fun e e' h h' => related_readOperand_token hR hk ih hg hl hl' hp h h',
      fun a a' ha e e' h h' => related_readOperator_token hR hk ih hg hl hl' hp ha h h'⟩
  | operand hd hd' hdd _ ih => exact readAlike_operand hd hd' hdd ih

end

/-- What is parsed is parsed the same with a larger limit. -/
theorem parse_of_le {maxDepth limit : Nat} (hle : maxDepth ≤ limit) {tokens : List Token} {e : Expr}
    (h : parse maxDepth tokens = .ok e) : parse limit tokens = .ok e := by
  obtain ⟨d, hd, rfl, hdepth, rfl⟩ := exists_derivation_of_parse h
  exact parse_tokens hd (Nat.le_trans hdepth hle)

theorem parseLeading_of_parse {maxDepth : Nat} {tokens : List Token} {e : Expr}
    (h : parse maxDepth tokens = .ok e) :
    readOperand ⟨maxDepth, 0, 0, endOf tokens⟩ [] .empty tokens = .ok (e, []) := by
  rw [parse] at h
  split at h
  · cases h
  · rw [← parseLeading]
    split at h
    · cases h
    · next heq => rw [heq, Except.ok.inj h]
    · cases h

/-- **Tokens that are related are read as expressions that are related**, by every congruence. -/
theorem parse_related (hR : IsCongruence R) {tokens tokens' : List Token}
    (ht : TokensRelated R tokens tokens') {maxDepth maxDepth' : Nat} {e e' : Expr}
    (h : parse maxDepth tokens = .ok e) (h' : parse maxDepth' tokens' = .ok e') : R e e' := by
  -- a limit that no parenthesis in the tokens can reach
  have hlimit : ∃ limit, maxDepth ≤ limit ∧ maxDepth' ≤ limit ∧ tokens.length ≤ limit ∧
      tokens'.length ≤ limit :=
    ⟨maxDepth + maxDepth' + tokens.length + tokens'.length, by omega, by omega, by omega, by omega⟩
  obtain ⟨limit, hle, hle', hlength, hlength'⟩ := hlimit
  exact (readAlike_of_tokensRelated hR ht .nil (by simpa using hlength) (by simpa using hlength')
    pendingRelated_empty).1 e e' (parseLeading_of_parse (parse_of_le hle h))
    (parseLeading_of_parse (parse_of_le hle' h'))

end Expr

/-! ### A part in parentheses -/

theorem Token.place_append (column offset : Nat) (l l' : List Text) :
    place column offset (l ++ l') = place column offset l ++
      place (column + l.flatten.length) (offset + Text.byteSize l.flatten) l' := by
  induction l generalizing column offset with
  | nil => simp
  | cons lexeme rest ih => simp [place, ih, Nat.add_assoc]

/-- A parenthesis is a lexeme by itself. -/
theorem Text.lexemes_append_cons {c : Char} (hc : c.isDigit = false) (before behind : Text) :
    Text.lexemes (before ++ c :: behind) = Text.lexemes before ++ [c] :: Text.lexemes behind := by
  rw [List.append_cons]
  exact Text.lexemes_cut (List.cons_ne_nil c []) (.inr ⟨c, rfl⟩) (by simp [hc]) (by simp [hc])

/-- A part in parentheses, with what stands before and behind it. -/
def Text.enclose (before x behind : Text) : Text := before ++ '(' :: x ++ ')' :: behind

/-- The tokens of a part in parentheses are tokens of the text, between its parentheses. -/
theorem tokenize_enclose (before x behind : Text) :
    ∃ front opening closing back,
      tokenize (Text.enclose before x behind) = front ++ (opening ::
        (((tokenize x).map (Token.after (before ++ ['(']))) ++ closing :: back)) ∧
      opening.kind = .leftParen ∧ closing.kind = .rightParen ∧
      front.map Token.kind = (Text.lexemes before).map TokenKind.ofLexeme ∧
      back.map Token.kind = (Text.lexemes behind).map TokenKind.ofLexeme := by
  have hlexemes : Text.lexemes (Text.enclose before x behind) =
      Text.lexemes before ++ ['('] :: (Text.lexemes x ++ [')'] :: Text.lexemes behind) := by
    rw [Text.enclose, List.append_assoc, List.cons_append, Text.lexemes_append_cons (by decide),
      Text.lexemes_append_cons (by decide)]
  -- the parenthesis belongs to what stands in front of the part
  have hinside : Token.place (1 + before.length + 1) (Text.byteSize before + 1) (Text.lexemes x) =
      (tokenize x).map (Token.after (before ++ ['('])) := by
    have hafter := @Token.place_after (before ++ ['(']) 1 0 (Text.lexemes x)
    rwa [List.length_append, Text.byteSize_append, ← Nat.add_assoc, Nat.zero_add] at hafter
  rw [tokenize, hlexemes, Token.place_append, Text.flatten_lexemes, Token.place, Token.place_append,
    Token.place, Nat.zero_add]
  refine ⟨_, _, _, _, congrArg _ (congrArg _ (congrArg (· ++ _) hinside)), rfl, rfl,
    Token.map_kind_place .., Token.map_kind_place ..⟩

namespace Expr

variable {pow : Binary64 → Binary64 → Binary64} {e e' : Expr}

/-- Expressions that can be interchanged have the same value, or fail with errors of one kind. -/
theorem Interchangeable.agree_settle (h : Interchangeable pow e e') :
    Agree Eq (settle pow e) (settle pow e') :=
  Agree.bind h fun _ _ hr => hr

/-- Expressions with the same value can be interchanged, whatever they are reduced to. -/
theorem interchangeable_of_settle {v : Value} (h : settle pow e = .ok v)
    (h' : settle pow e' = .ok v) : Interchangeable pow e e' := by
  rw [settle, Except.bind_eq_ok_iff] at h h'
  obtain ⟨r, hr, hv⟩ := h
  obtain ⟨r', hr', hv'⟩ := h'
  rw [Interchangeable, hr, hr']
  refine .ok ?_
  rw [EvaluateAlike, hv, hv']
  exact .ok rfl

end Expr

namespace Calculator

open Abacus.Expr Abacus.Derivation

variable {calculator : Calculator}

/-- Evaluating a text that is read does what settling its expression does. -/
theorem settle_eq_outcome_evaluate {s : Text} {e : Expr}
    (h : (calculator.parse s).outcome = .ok e) :
    settle calculator.pow e =
      (calculator.evaluate s).outcome >>= fun evaluation => .ok evaluation.value := by
  cases hs : (calculator.evaluate s).outcome with
  | error error => exact (outcome_evaluate_eq_error_iff h).mp hs
  | ok evaluation =>
    obtain ⟨reduced, hreduce, hvalue, -⟩ := outcome_evaluate_eq_ok_iff.mp hs
    obtain ⟨e', hparse, hreduced⟩ := outcome_reduce_eq_ok_iff.mp hreduce
    obtain rfl : e = e' := Except.ok.inj (h.symm.trans hparse)
    rw [settle_of_reduceNode_eq_ok hreduced, hvalue, Except.ok_bind]

/-- A part with a value is an operand, moved and put into parentheses, that settles to this value
without them. -/
theorem exists_operand_of_evaluate {x : Text} {evaluation : Evaluation}
    (h : (calculator.evaluate x).outcome = .ok evaluation) (before : Text) {opening closing : Token}
    (ho : opening.kind = .leftParen) (hc : closing.kind = .rightParen) :
    ∃ d : Derivation, IsA .operand d ∧
      d.tokens = opening :: ((tokenize x).map (Token.after before) ++ [closing]) ∧
      ∃ e span, d.expr = e.withSpan span ∧ settle calculator.pow e = .ok evaluation.value := by
  obtain ⟨reduced, hreduce, -, -⟩ := outcome_evaluate_eq_ok_iff.mp h
  obtain ⟨e, hparse, -⟩ := outcome_reduce_eq_ok_iff.mp hreduce
  have hsettle : settle calculator.pow e = .ok evaluation.value := by
    rw [settle_eq_outcome_evaluate hparse, h, Except.ok_bind]
  obtain ⟨d, hd, htokens, -, rfl⟩ :=
    exists_derivation_of_parse ((calculator.outcome_parse_eq_ok_iff x e).mp hparse).1
  refine ⟨.group opening (d.after before) closing, .group ho (hd.after before) hc, ?_,
    (d.after before).expr, _, rfl, ?_⟩
  · rw [tokens, tokens_after, htokens]
  · rw [expr_after, settle_shift, hsettle]
    rfl

/-- **A part in parentheses can be replaced by one with the same value.** The two texts then have the
same value, or both fail, with errors of one kind. That the parentheses shown are a pair needs no
saying: what stands between them is an expression. -/
theorem evaluate_replaced_group {before x x' behind : Text} {whole whole' : Expr}
    {evaluation evaluation' : Evaluation}
    (hs : (calculator.parse (Text.enclose before x behind)).outcome = .ok whole)
    (hs' : (calculator.parse (Text.enclose before x' behind)).outcome = .ok whole')
    (hx : (calculator.evaluate x).outcome = .ok evaluation)
    (hx' : (calculator.evaluate x').outcome = .ok evaluation')
    (hv : evaluation.value = evaluation'.value) :
    Agree (fun result result' => result.value = result'.value)
      (calculator.evaluate (Text.enclose before x behind)).outcome
      (calculator.evaluate (Text.enclose before x' behind)).outcome := by
  obtain ⟨front, opening, closing, back, htokens, ho, hc, hfront, hback⟩ :=
    tokenize_enclose before x behind
  obtain ⟨front', opening', closing', back', htokens', ho', hc', hfront', hback'⟩ :=
    tokenize_enclose before x' behind
  obtain ⟨d, hd, hdtokens, e, span, he, hsettle⟩ := exists_operand_of_evaluate hx _ ho hc
  obtain ⟨d', hd', hdtokens', e', span', he', hsettle'⟩ :=
    exists_operand_of_evaluate hx' _ ho' hc'
  -- the parts can be interchanged, and so can the texts around them
  have hparts : Interchangeable calculator.pow d.expr d'.expr := by
    rw [he, he']
    exact (interchangeable_of_settle hsettle (hv ▸ hsettle')).withSpan span span'
  have hrelated : TokensRelated (Interchangeable calculator.pow)
      (tokenize (Text.enclose before x behind))
      (tokenize (Text.enclose before x' behind)) := by
    have hback : TokensRelated (Interchangeable calculator.pow) back back' := by
      simpa using tokensRelated_of_map_kind (hback'.trans hback.symm) .nil
    have hgroup := TokensRelated.operand hd hd' hparts hback
    rw [hdtokens, hdtokens'] at hgroup
    rw [htokens, htokens']
    simpa using tokensRelated_of_map_kind (hfront'.trans hfront.symm) hgroup
  have hwhole := (parse_related isCongruence_interchangeable hrelated
    ((calculator.outcome_parse_eq_ok_iff _ _).mp hs).1
    ((calculator.outcome_parse_eq_ok_iff _ _).mp hs').1).agree_settle
  rw [settle_eq_outcome_evaluate hs, settle_eq_outcome_evaluate hs'] at hwhole
  exact Agree.of_bind_ok hwhole

/-- `2^3` and `4+4` can replace each other in `2^(…)-1`, although there is a power in one of them. -/
theorem evaluate_replaced_group_of_two_sums :
    ∃ whole whole' evaluation evaluation',
      ((standard 1).parse (Text.enclose "2^".toList "2^3".toList "-1".toList)).outcome =
        .ok whole ∧
      ((standard 1).parse (Text.enclose "2^".toList "4+4".toList "-1".toList)).outcome =
        .ok whole' ∧
      ((standard 1).evaluate "2^3".toList).outcome = .ok evaluation ∧
      ((standard 1).evaluate "4+4".toList).outcome = .ok evaluation' ∧
      evaluation.value = evaluation'.value ∧
      Agree (fun result result' => result.value = result'.value)
        ((standard 1).evaluate (Text.enclose "2^".toList "2^3".toList "-1".toList)).outcome
        ((standard 1).evaluate (Text.enclose "2^".toList "4+4".toList "-1".toList)).outcome := by
  obtain ⟨whole, hs⟩ : ∃ whole, ((standard 1).parse
      (Text.enclose "2^".toList "2^3".toList "-1".toList)).outcome = .ok whole := ⟨_, rfl⟩
  obtain ⟨whole', hs'⟩ : ∃ whole', ((standard 1).parse
      (Text.enclose "2^".toList "4+4".toList "-1".toList)).outcome = .ok whole' := ⟨_, rfl⟩
  have hx : ((standard 1).evaluate "2^3".toList).outcome = .ok ⟨"8".toList, .int32 8⟩ :=
    Except.toOption_eq_some_iff.mp (by decide +kernel)
  have hx' : ((standard 1).evaluate "4+4".toList).outcome = .ok ⟨"4+4".toList, .int32 8⟩ :=
    Except.toOption_eq_some_iff.mp (by decide +kernel)
  exact ⟨whole, whole', _, _, hs, hs', hx, hx', rfl, evaluate_replaced_group hs hs' hx hx' rfl⟩

end Calculator

end Abacus
