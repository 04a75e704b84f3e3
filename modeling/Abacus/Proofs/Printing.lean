import Abacus.Proofs.Nesting

/-!
# What is printed is derived

The text of a flat expression is derived by the grammar, and the derivation means the
expression (`IsFlat.isWrittenOut`). The printer sets a pair of parentheses where an operand is of
a weaker level than the phrase that the grammar has in its place, and there the grammar has a
rule for them; where it sets none, the level is tight enough. In a flat expression the first
operand of a chain is never of the level of the chain, and this is what makes the two agree
there.

Tokens of a text know where they stand, and the grammar does not care: with tokens of the same
kinds there is a derivation of the same shape (`IsA.exists_of_map_kind_eq`). So what is derived
is the list of the tokens of the text itself (`IsPlain.exists_derivation`).
-/

namespace Abacus

open TokenKind

namespace Derivation

/-! ### Tokens of the same kinds -/

theorem tree_repetition_congr {first first' : Derivation} {steps steps' : List Step}
    (hf : first'.tree = first.tree) (hs : stepTrees steps' = stepTrees steps) :
    (repetition first' steps').tree = (repetition first steps).tree := by
  cases steps with
  | nil =>
    cases steps' with
    | nil => rw [tree, tree, hf]
    | cons step' rest' =>
      obtain ⟨token', op', part'⟩ := step'
      simp [stepTrees] at hs
  | cons step rest =>
    cases steps' with
    | nil =>
      obtain ⟨token, op, part⟩ := step
      simp [stepTrees] at hs
    | cons => rw [tree, tree, hf, hs]

/-- Another derivation of the phrase for given tokens, of the same depth and meaning. -/
def HasTwin (phrase : Phrase) (d : Derivation) (ts : List Token) : Prop :=
  ∃ d', IsA phrase d' ∧ d'.tokens = ts ∧ d'.depth = d.depth ∧ d'.tree = d.tree

theorem exists_steps_of_map_kind_eq {phrase : Phrase} {steps : List Step}
    (hs : ∀ step ∈ steps, step.Joins phrase)
    (hi : ∀ step ∈ steps, ∀ ts : List Token,
      ts.map Token.kind = step.part.tokens.map Token.kind → HasTwin phrase.part step.part ts)
    {ts : List Token} (hts : ts.map Token.kind = (stepTokens steps).map Token.kind) :
    ∃ steps', (∀ step ∈ steps', step.Joins phrase) ∧
      (∀ step ∈ steps', IsA phrase.part step.part) ∧ stepTokens steps' = ts ∧
      stepDepth steps' = stepDepth steps ∧ stepTrees steps' = stepTrees steps := by
  induction steps generalizing ts with
  | nil =>
    obtain rfl := List.map_eq_nil_iff.mp hts
    exact ⟨[], by simp, by simp, rfl, rfl, rfl⟩
  | cons step rest ih =>
    obtain ⟨token, op, part⟩ := step
    rw [List.forall_mem_cons] at hs hi
    rw [stepTokens, List.map_cons, List.map_append, List.map_eq_cons_iff] at hts
    obtain ⟨token', ts, rfl, hk, hts⟩ := hts
    obtain ⟨tp, tr, rfl, hpart, hrest⟩ := List.map_eq_append_iff.mp hts
    obtain ⟨part', hp', rfl, hdepth, htree⟩ := hi.1 tp hpart
    obtain ⟨rest', hjoins, hparts, rfl, hdepth', htree'⟩ := ih hs.2 hi.2 hrest
    refine ⟨⟨token', op, part'⟩ :: rest', ?_, ?_, rfl, ?_, ?_⟩
    · rw [List.forall_mem_cons]
      exact ⟨⟨hk.trans hs.1.1, hs.1.2⟩, hjoins⟩
    · rw [List.forall_mem_cons]
      exact ⟨hp', hparts⟩
    · rw [stepDepth, stepDepth, hdepth, hdepth']
    · rw [stepTrees, stepTrees, htree, htree']

/-- **The grammar looks at kinds only**: tokens of the same kinds have a derivation of the same
depth that means the same. -/
theorem IsA.exists_of_map_kind_eq {phrase : Phrase} {d : Derivation} (h : IsA phrase d)
    {ts : List Token} (hts : ts.map Token.kind = d.tokens.map Token.kind) :
    HasTwin phrase d ts := by
  induction h generalizing ts with
  | @number token value hk =>
    rw [tokens, List.map_singleton, List.map_eq_singleton_iff] at hts
    obtain ⟨token', rfl, hk'⟩ := hts
    exact ⟨.number token' value, .number (hk'.trans hk), rfl, rfl, rfl⟩
  | @group opening closing inner ho _ hc ih =>
    rw [tokens, List.map_cons, List.map_append, List.map_singleton, List.map_eq_cons_iff] at hts
    obtain ⟨opening', ts', rfl, ho', hts⟩ := hts
    obtain ⟨ts', tc, rfl, hinner, hclosing⟩ := List.map_eq_append_iff.mp hts
    obtain ⟨closing', rfl, hc'⟩ := List.map_eq_singleton_iff.mp hclosing
    obtain ⟨inner', hi', rfl, hdepth, htree⟩ := ih hinner
    refine ⟨.group opening' inner' closing', .group (ho'.trans ho) hi' (hc'.trans hc), rfl, ?_, ?_⟩
    · rw [depth, depth, hdepth]
    · rw [tree, tree, htree]
  | @repetition phrase first steps hne _ hs _ ihf ihs =>
    rw [tokens, List.map_append] at hts
    obtain ⟨tf, tsteps, rfl, hfirst, hsteps⟩ := List.map_eq_append_iff.mp hts
    obtain ⟨first', hf', rfl, hdepth, htree⟩ := ihf hfirst
    obtain ⟨steps', hjoins, hparts, rfl, hdepth', htree'⟩ :=
      exists_steps_of_map_kind_eq hs (fun step hm ts => ihs step hm) hsteps
    refine ⟨.repetition first' steps', .repetition hne hf' hjoins hparts, rfl, ?_, ?_⟩
    · rw [depth, depth, hdepth, hdepth']
    · exact tree_repetition_congr htree htree'

/-! ### Derivations of given texts -/

/-- A text is derived as a phrase: some derivation of the phrase means the tree, and its tokens
spell the text. -/
def IsWritten (phrase : Phrase) (tree : Expr) (s : Text) : Prop :=
  ∃ d, IsA phrase d ∧ d.tree = tree ∧ IsSpellable (d.tokens.map Token.kind) ∧
    spell (d.tokens.map Token.kind) = s

/-- A token of a given kind, wherever it stands. -/
def tokenOfKind (kind : TokenKind) : Token := ⟨kind, kind.text, 1, 0⟩

theorem isWritten_number {value : Int64} (h : 0 ≤ value.toInt) :
    IsWritten .operand (.literal (.int value) default) (Literal.int value).text := by
  refine ⟨.number (tokenOfKind (.integer value)) value, .number rfl, rfl,
    isSpellable_singleton h, ?_⟩
  simp only [tokens, List.map_singleton, spell_cons, spell_nil, List.append_nil]
  rfl

theorem IsWritten.group {tree : Expr} {s : Text} (h : IsWritten .sum tree s) :
    IsWritten .operand tree ('(' :: s ++ [')']) := by
  obtain ⟨d, hd, htree, hspellable, hspell⟩ := h
  refine ⟨.group (tokenOfKind .leftParen) d (tokenOfKind .rightParen), .group rfl hd rfl, htree,
    ?_, ?_⟩
  · have hopening : IsSpelled .leftParen := trivial
    have hclosing : IsSpelled .rightParen := trivial
    rw [tokens, List.map_cons, List.map_append, List.map_singleton]
    exact (hspellable.append_cons hclosing rfl isSpellable_nil).cons hopening rfl
  · rw [tokens, List.map_cons, List.map_append, List.map_singleton, spell_cons, spell_append,
      hspell, spell_cons, spell_nil, List.append_nil]
    rfl

theorem IsWritten.weaker {phrase weaker : Phrase} {tree : Expr} {s : Text}
    (h : IsWritten phrase tree s) (hw : weaker.level ≤ phrase.level) : IsWritten weaker tree s := by
  obtain ⟨d, hd, htree, hspellable, hspell⟩ := h
  obtain ⟨d', hd', htokens, -, htree'⟩ := hd.exists_weaker weaker hw
  rw [← htokens] at hspellable hspell
  exact ⟨d', hd', htree'.trans htree, hspellable, hspell⟩

/-- Steps are written as the links of a chain, if the operands are written as the parts. -/
theorem exists_steps_of_links {phrase : Phrase} {l : Nat} {links : List Link}
    (hop : ∀ link ∈ links, link.operator ∈ phrase.operators)
    (hl : ∀ link ∈ links, IsWritten phrase.part link.operand.eraseSpans
      (Expr.wrapIf (link.operand.isWrapped (· ≤ l)) link.operand.text)) :
    ∃ steps, (∀ step ∈ steps, step.Joins phrase) ∧ (∀ step ∈ steps, IsA phrase.part step.part) ∧
      stepTrees steps = Expr.eraseLinkSpans links ∧
      (∀ kinds, IsSpellable kinds → IsSpellable (kinds ++ (stepTokens steps).map Token.kind)) ∧
      spell ((stepTokens steps).map Token.kind) = Expr.linksText l links := by
  induction links with
  | nil => exact ⟨[], by simp, by simp, rfl, by simp [stepTokens], rfl⟩
  | cons link rest ih =>
    obtain ⟨op, operand⟩ := link
    rw [List.forall_mem_cons] at hop hl
    obtain ⟨part, hpart, htree, hspellable, hspell⟩ := hl.1
    obtain ⟨steps, hjoins, hparts, htrees, hspellable', hspell'⟩ := ih hop.2 hl.2
    refine ⟨⟨tokenOfKind (.operator op), op, part⟩ :: steps, ?_, ?_, ?_, ?_, ?_⟩
    · rw [List.forall_mem_cons]
      exact ⟨⟨rfl, hop.1⟩, hjoins⟩
    · rw [List.forall_mem_cons]
      exact ⟨hpart, hparts⟩
    · rw [stepTrees, Expr.eraseLinkSpans, htree, htrees]
    · intro kinds hkinds
      have hoperator : IsSpelled (.operator op) := trivial
      rw [stepTokens, List.map_cons, List.map_append]
      exact hkinds.append_cons hoperator rfl (hspellable' _ hspellable)
    · rw [stepTokens, List.map_cons, List.map_append, spell_cons, spell_append, hspell, hspell',
        Expr.linksText]
      rfl

/-- A chain is written as a phrase if its operands are written as the parts. -/
theorem isWritten_chain {phrase : Phrase} (hne : phrase ≠ .operand) {first : Expr} {l : Nat}
    {links : List Link} (hlinks : links ≠ [])
    (hop : ∀ link ∈ links, link.operator ∈ phrase.operators) {s : Text}
    (hf : IsWritten phrase.part first.eraseSpans s)
    (hl : ∀ link ∈ links, IsWritten phrase.part link.operand.eraseSpans
      (Expr.wrapIf (link.operand.isWrapped (· ≤ l)) link.operand.text)) (span : Span) :
    IsWritten phrase (Expr.chain first links span).eraseSpans (s ++ Expr.linksText l links) := by
  obtain ⟨d, hd, htree, hspellable, hspell⟩ := hf
  obtain ⟨steps, hjoins, hparts, htrees, hspellable', hspell'⟩ := exists_steps_of_links hop hl
  refine ⟨.repetition d steps, .repetition hne hd hjoins hparts, ?_, ?_, ?_⟩
  · cases steps with
    | nil =>
      rw [stepTrees, Expr.eraseLinkSpans_eq_map, eq_comm, List.map_eq_nil_iff] at htrees
      exact absurd htrees hlinks
    | cons step rest => rw [tree, htree, htrees, Expr.eraseSpans]
  · rw [tokens, List.map_append]
    exact hspellable' _ hspellable
  · rw [tokens, List.map_append, spell_append, hspell, hspell']

end Derivation

namespace Expr

open Abacus.Derivation

/-- An operand without literals that need a sign is put into parentheses for its level only. -/
theorem isWrapped_eq_any {e : Expr} (h : e.IsPlain) (weak : Nat → Bool) :
    e.isWrapped weak = e.precedence?.any weak := by
  cases h with
  | @literal value span hv =>
    obtain ⟨n, rfl, hn⟩ := hv
    have hneg : ¬ n < 0 := by
      rw [Int64.lt_iff_toInt_lt, Int64.toInt_zero]
      omega
    simpa [isWrapped, Literal.isNegative, precedence?, operator?] using hneg
  | @chain first links span hn _ _ =>
    have hlevel := level_ne_zero hn.1
    rw [isWrapped_chain, precedence?_chain hn.1]
    simp [hlevel]

theorem one_le_of_mem_precedence? {e : Expr} {l : Nat} (h : l ∈ e.precedence?) : 1 ≤ l := by
  obtain ⟨op, -, rfl⟩ := Option.map_eq_some_iff.mp h
  rw [← op.level_phrase]
  exact op.phrase.one_le_level

theorem exists_phrase_of_level {links : List Link} (h : links ≠ []) :
    ∃ phrase : Phrase, phrase ≠ .operand ∧ level links = phrase.level := by
  cases links with
  | nil => exact absurd rfl h
  | cons link rest =>
    exact ⟨link.operator.phrase, link.operator.phrase_ne_operand, link.operator.level_phrase.symm⟩

/-- The expression is written as every phrase that is weak enough for it. -/
def IsWrittenOut (e : Expr) : Prop :=
  ∀ phrase : Phrase, (∀ l ∈ e.precedence?, phrase.level ≤ l) →
    IsWritten phrase e.eraseSpans e.text

/-- An operand is written as a phrase, in parentheses if it would be too weak without. -/
theorem IsWrittenOut.wrapIf {e : Expr} (h : e.IsWrittenOut) (hp : e.IsPlain) {phrase : Phrase}
    {weak : Nat → Bool} (hweak : ∀ l ∈ e.precedence?, ¬ weak l → phrase.level ≤ l) :
    IsWritten phrase e.eraseSpans (wrapIf (e.isWrapped weak) e.text) := by
  rw [isWrapped_eq_any hp]
  cases hprec : e.precedence? with
  | none => exact h phrase (by simp [hprec])
  | some l =>
    rw [Option.any_some]
    by_cases hw : weak l
    · have hsum : IsWritten .sum e.eraseSpans e.text :=
        h .sum fun l hl => one_le_of_mem_precedence? hl
      rw [hw]
      exact hsum.group.weaker phrase.level_le_four
    · rw [Bool.not_eq_true] at hw
      rw [hw]
      refine h phrase fun l' hl' => hweak l' hl' ?_
      obtain rfl : l = l' := Option.some.inj (hprec.symm.trans hl')
      simp [hw]

/-- **What is printed for a flat expression is derived**, as every phrase that is weak enough,
and means the expression. -/
theorem IsFlat.isWrittenOut {e : Expr} (h : e.IsFlat) : e.IsWrittenOut := by
  induction h with
  | literal hv =>
    obtain ⟨n, rfl, hn⟩ := hv
    intro phrase _
    exact (isWritten_number hn).weaker phrase.level_le_four
  | @chain first links span hn hf hl ihf ihl =>
    obtain ⟨⟨hne, hsame⟩, hprec⟩ := hn
    obtain ⟨own, hown, hlevel⟩ := exists_phrase_of_level hne
    have hpart := Phrase.level_part hown
    intro phrase hp
    have hweaker : phrase.level ≤ own.level := hlevel ▸ hp _ (precedence?_chain hne)
    have hfirst : IsWritten own.part first.eraseSpans
        (wrapIf (first.isWrapped (· < level links)) first.text) := by
      -- no first operand of a flat chain is of the level of the chain
      refine ihf.wrapIf (IsFlat.isPlain hf) fun l hm hw => ?_
      have hother : l ≠ level links := by
        rintro rfl
        exact hprec hm
      simp only [decide_eq_true_eq] at hw
      omega
    have hoperands : ∀ link ∈ links, IsWritten own.part link.operand.eraseSpans
        (wrapIf (link.operand.isWrapped (· ≤ level links)) link.operand.text) := by
      intro link hm
      refine (ihl link hm).wrapIf (IsFlat.isPlain (hl link hm)) fun l _ hw => ?_
      simp only [decide_eq_true_eq] at hw
      omega
    have hop : ∀ link ∈ links, link.operator ∈ own.operators := fun link hm =>
      Phrase.mem_operators_iff.mpr ((hsame link hm).trans hlevel)
    rw [text]
    exact (isWritten_chain hown hne hop hfirst hoperands span).weaker hweaker

/-- **What is printed for a plain expression is derived** as a sum that means the spliced
expression, with as many parentheses open at once as there are in the text. -/
theorem IsPlain.exists_derivation {e : Expr} (h : e.IsPlain) :
    ∃ d, IsA .sum d ∧ d.tokens = tokenize e.text ∧ d.depth = e.text.nesting ∧
      d.tree = e.splice.eraseSpans := by
  have hwritten : IsWritten .sum e.splice.eraseSpans e.splice.text :=
    h.isFlat_splice.isWrittenOut .sum fun l hl => one_le_of_mem_precedence? hl
  rw [(samePrint_splice e).1] at hwritten
  obtain ⟨d, hd, htree, hspellable, hspell⟩ := hwritten
  have hkinds : (tokenize e.text).map Token.kind = d.tokens.map Token.kind := by
    rw [← hspell, map_kind_tokenize_spell hspellable]
  obtain ⟨d', hd', htokens, hdepth, htree'⟩ := hd.exists_of_map_kind_eq hkinds
  have hnests := hd.nests_spell
  rw [hspell] at hnests
  exact ⟨d', hd', htokens, hdepth.trans hnests.nesting_eq.symm, htree'.trans htree⟩

end Expr

end Abacus
