import Abacus.Expr.Printer

/-!
# The shape of an expression

Notions about expressions that the theorems share: spans in a row, an expression without its
spans, its literals and operators in the order in which they are written, properties that hold at
every node, and how many chains there are within each other.

Four properties are named. In a *levelled* expression the operators of each chain are of one
level. A *regular* one is levelled, and has no chain without links. In a *plain* one all
literals are moreover integers that need no sign. A *flat* one is plain, and no chain begins with
a chain of its own level, so that there is only one way to read what is printed for it.
-/

namespace Abacus

/-- The same link with a changed operand. -/
def Link.map (f : Expr → Expr) (link : Link) : Link := ⟨link.operator, f link.operand⟩

@[simp] theorem Link.operator_map (f : Expr → Expr) (link : Link) :
    (link.map f).operator = link.operator := rfl

@[simp] theorem Link.operand_map (f : Expr → Expr) (link : Link) :
    (link.map f).operand = f link.operand := rfl

theorem Link.map_id : Link.map id = id := by
  funext link
  cases link
  rfl

/-! ### Spans in a row -/

namespace Span

/-- The spans are not empty, and each of them ends before the next one begins. -/
def InOrder (spans : List Span) : Prop :=
  (∀ span ∈ spans, span.start < span.stop) ∧ spans.Pairwise fun a b => a.stop < b.start

/-- The spans begin and end from left to right, but may overlap. -/
def Ascending (spans : List Span) : Prop :=
  spans.Pairwise fun a b => a.start ≤ b.start ∧ a.stop ≤ b.stop

theorem inOrder_cons_iff {span : Span} {spans : List Span} :
    InOrder (span :: spans) ↔
      span.start < span.stop ∧ (∀ next ∈ spans, span.stop < next.start) ∧ InOrder spans := by
  rw [InOrder, InOrder, List.forall_mem_cons, List.pairwise_cons]
  constructor
  · rintro ⟨⟨hlt, hne⟩, hbefore, hpairs⟩
    exact ⟨hlt, hbefore, hne, hpairs⟩
  · rintro ⟨hlt, hbefore, hne, hpairs⟩
    exact ⟨⟨hlt, hne⟩, hbefore, hpairs⟩

theorem InOrder.ascending {spans : List Span} (h : InOrder spans) : Ascending spans := by
  obtain ⟨hne, hpairs⟩ := h
  refine hpairs.imp_of_mem ?_
  intro a b ha hb hlt
  have hlta := hne a ha
  have hltb := hne b hb
  omega

/-- Spans from left to right are still so when the first two are joined. -/
theorem Ascending.cover {a b : Span} {spans : List Span} (h : Ascending (a :: b :: spans)) :
    Ascending (a.cover b :: spans) := by
  simp only [Ascending, List.pairwise_cons, List.forall_mem_cons] at h ⊢
  obtain ⟨⟨-, ha⟩, hb, hspans⟩ := h
  refine ⟨?_, hspans⟩
  intro next hm
  obtain ⟨hstart, hstop⟩ := ha next hm
  obtain ⟨-, hstop'⟩ := hb next hm
  rw [cover_start, cover_stop]
  omega

/-- What lies between two of the spans is covered by the two. -/
theorem Ascending.cover_cover {a b c : Span} {spans : List Span} (h : Ascending (a :: b :: spans))
    (hc : c ∈ spans) : (a.cover b).cover c = a.cover c := by
  simp only [Ascending, List.pairwise_cons, List.forall_mem_cons] at h
  obtain ⟨⟨⟨hstart, -⟩, -⟩, hb, -⟩ := h
  obtain ⟨-, hstop⟩ := hb c hc
  simp only [Span.cover, Span.mk.injEq]
  omega

end Span

namespace Expr

/-- The spans of the operands of links. -/
def linkSpans (links : List Link) : List Span := links.map fun link => link.operand.span

theorem leadingSpan_eq (first : Expr) (links : List Link) (index : Nat) :
    leadingSpan first links index =
      ((linkSpans links)[index]?.map first.span.cover).getD first.span := by
  rw [leadingSpan, linkSpans, List.getElem?_map]
  cases links[index]? <;> rfl

/-! ### Forgetting spans -/

mutual

/-- The expression without its spans. -/
def eraseSpans : Expr → Expr
  | literal value _ => .literal value default
  | chain first links _ => .chain first.eraseSpans (eraseLinkSpans links) default

/-- Links without their spans. -/
def eraseLinkSpans : List Link → List Link
  | [] => []
  | ⟨operator, operand⟩ :: rest => ⟨operator, operand.eraseSpans⟩ :: eraseLinkSpans rest

end

theorem eraseLinkSpans_eq_map (links : List Link) :
    eraseLinkSpans links = links.map (Link.map eraseSpans) := by
  induction links with
  | nil => rfl
  | cons link rest ih =>
    obtain ⟨operator, operand⟩ := link
    rw [eraseLinkSpans, List.map_cons, ih]
    rfl

@[simp] theorem eraseSpans_withSpan (span : Span) (e : Expr) :
    (e.withSpan span).eraseSpans = e.eraseSpans := by
  cases e <;> rfl

theorem exists_ofChain_eq (first : Expr) {links : List Link} (h : links ≠ []) :
    ∃ span, ofChain first links = .chain first links span := by
  unfold ofChain
  split
  · next hnil => exact absurd (List.getLast?_eq_none_iff.mp hnil) h
  · exact ⟨_, rfl⟩

theorem eraseSpans_ofChain (first : Expr) {links : List Link} (h : links ≠ []) :
    (ofChain first links).eraseSpans =
      .chain first.eraseSpans (eraseLinkSpans links) default := by
  obtain ⟨span, hchain⟩ := exists_ofChain_eq first h
  rw [hchain, eraseSpans]

/-! ### Literals and operators as they are written -/

mutual

/-- The literals and operators of an expression, from left to right. -/
def symbols : Expr → List (Literal ⊕ Operator)
  | literal value _ => [.inl value]
  | chain first links _ => first.symbols ++ linkSymbols links

/-- The literals and operators of links, from left to right. -/
def linkSymbols : List Link → List (Literal ⊕ Operator)
  | [] => []
  | ⟨operator, operand⟩ :: rest => .inr operator :: operand.symbols ++ linkSymbols rest

end

@[simp] theorem symbols_withSpan (span : Span) (e : Expr) :
    (e.withSpan span).symbols = e.symbols := by
  cases e <;> rfl

@[simp] theorem literals_withSpan (span : Span) (e : Expr) :
    (e.withSpan span).literals = e.literals := by
  cases e <;> rfl

@[simp] theorem symbols_ofChain (first : Expr) (links : List Link) :
    (ofChain first links).symbols = first.symbols ++ linkSymbols links := by
  by_cases h : links = []
  · rw [h, ofChain_nil, linkSymbols, List.append_nil]
  · obtain ⟨span, hchain⟩ := exists_ofChain_eq first h
    rw [hchain, symbols]

/-! ### Properties of every node -/

/-- `onLiteral` holds of every literal, and `onChain` of the first operand and the links of
every chain. -/
inductive Everywhere (onLiteral : Literal → Prop) (onChain : Expr → List Link → Prop) :
    Expr → Prop where
  | literal {value : Literal} {span : Span} :
      onLiteral value → Everywhere onLiteral onChain (.literal value span)
  | chain {first : Expr} {links : List Link} {span : Span} :
      onChain first links → Everywhere onLiteral onChain first →
      (∀ link ∈ links, Everywhere onLiteral onChain link.operand) →
      Everywhere onLiteral onChain (.chain first links span)

section Everywhere

variable {onLiteral onLiteral' : Literal → Prop} {onChain onChain' : Expr → List Link → Prop}

theorem Everywhere.mono (hl : ∀ value, onLiteral value → onLiteral' value)
    (hc : ∀ first links, onChain first links → onChain' first links) {e : Expr}
    (h : e.Everywhere onLiteral onChain) : e.Everywhere onLiteral' onChain' := by
  induction h with
  | literal hv => exact .literal (hl _ hv)
  | chain hn _ _ ihf ihl => exact .chain (hc _ _ hn) ihf ihl

theorem everywhere_chain_iff {first : Expr} {links : List Link} {span : Span} :
    (Expr.chain first links span).Everywhere onLiteral onChain ↔
      onChain first links ∧ first.Everywhere onLiteral onChain ∧
        ∀ link ∈ links, link.operand.Everywhere onLiteral onChain := by
  constructor
  · rintro (_ | ⟨hn, hf, hl⟩)
    exact ⟨hn, hf, hl⟩
  · rintro ⟨hn, hf, hl⟩
    exact .chain hn hf hl

@[simp] theorem everywhere_withSpan {span : Span} {e : Expr} :
    (e.withSpan span).Everywhere onLiteral onChain ↔ e.Everywhere onLiteral onChain := by
  constructor
  · intro h
    cases e with
    | literal => cases h with | literal hv => exact .literal hv
    | chain => cases h with | chain hn hf hl => exact .chain hn hf hl
  · intro h
    cases h with
    | literal hv => exact .literal hv
    | chain hn hf hl => exact .chain hn hf hl

theorem everywhere_ofChain {first : Expr} {links : List Link}
    (hn : links ≠ [] → onChain first links) (hf : first.Everywhere onLiteral onChain)
    (hl : ∀ link ∈ links, link.operand.Everywhere onLiteral onChain) :
    (ofChain first links).Everywhere onLiteral onChain := by
  by_cases h : links = []
  · rw [h, ofChain_nil]
    exact hf
  · obtain ⟨span, hchain⟩ := exists_ofChain_eq first h
    rw [hchain]
    exact .chain (hn h) hf hl

theorem mem_linkLiterals_iff {value : Literal} {links : List Link} :
    value ∈ linkLiterals links ↔ ∃ link ∈ links, value ∈ link.operand.literals := by
  induction links with
  | nil => simp [linkLiterals]
  | cons link rest ih =>
    obtain ⟨operator, operand⟩ := link
    simp [linkLiterals, ih]

theorem mem_literals_chain_iff {value : Literal} {first : Expr} {links : List Link} {span : Span} :
    value ∈ (Expr.chain first links span).literals ↔
      value ∈ first.literals ∨ ∃ link ∈ links, value ∈ link.operand.literals := by
  rw [literals, List.mem_append, mem_linkLiterals_iff]

theorem forall_mem_literals_chain_iff {first : Expr} {links : List Link} {span : Span} :
    (∀ value ∈ (Expr.chain first links span).literals, onLiteral value) ↔
      (∀ value ∈ first.literals, onLiteral value) ∧
        ∀ link ∈ links, ∀ value ∈ link.operand.literals, onLiteral value := by
  simp only [mem_literals_chain_iff]
  constructor
  · intro h
    exact ⟨fun value hv => h value (.inl hv), fun link hm value hv => h value (.inr ⟨link, hm, hv⟩)⟩
  · rintro ⟨hf, hl⟩ value (hv | ⟨link, hm, hv⟩)
    · exact hf value hv
    · exact hl link hm value hv

theorem Everywhere.forall_mem_literals {e : Expr} (h : e.Everywhere onLiteral onChain) :
    ∀ value ∈ e.literals, onLiteral value := by
  induction h with
  | literal hv => simpa [literals] using hv
  | chain _ _ _ ihf ihl => exact forall_mem_literals_chain_iff.mpr ⟨ihf, ihl⟩

end Everywhere

/-! ### Chains within chains -/

mutual

/-- The greatest number of chains on a way from the expression down to one of its literals. -/
def chainDepth : Expr → Nat
  | literal _ _ => 0
  | chain first links _ => max first.chainDepth (linksChainDepth links) + 1

/-- The greatest number of chains on a way down from the operand of a link. -/
def linksChainDepth : List Link → Nat
  | [] => 0
  | ⟨_, operand⟩ :: rest => max operand.chainDepth (linksChainDepth rest)

end

@[simp] theorem chainDepth_withSpan (span : Span) (e : Expr) :
    (e.withSpan span).chainDepth = e.chainDepth := by
  cases e <;> simp only [withSpan, chainDepth]

theorem linksChainDepth_le_iff {n : Nat} {links : List Link} :
    linksChainDepth links ≤ n ↔ ∀ link ∈ links, link.operand.chainDepth ≤ n := by
  induction links with
  | nil => simp [linksChainDepth]
  | cons link rest ih =>
    obtain ⟨operator, operand⟩ := link
    rw [linksChainDepth, Nat.max_le, ih, List.forall_mem_cons]

theorem chainDepth_chain_le_iff {n : Nat} {first : Expr} {links : List Link} {span : Span} :
    (chain first links span).chainDepth ≤ n + 1 ↔
      first.chainDepth ≤ n ∧ ∀ link ∈ links, link.operand.chainDepth ≤ n := by
  rw [chainDepth, Nat.add_le_add_iff_right, Nat.max_le, linksChainDepth_le_iff]

theorem chainDepth_ofChain_le {n : Nat} {first : Expr} {links : List Link}
    (hf : first.chainDepth ≤ n) (hl : ∀ link ∈ links, link.operand.chainDepth ≤ n) :
    (ofChain first links).chainDepth ≤ n + 1 := by
  by_cases hne : links = []
  · rw [hne, ofChain_nil]
    omega
  · obtain ⟨span, hchain⟩ := exists_ofChain_eq first hne
    rw [hchain]
    exact chainDepth_chain_le_iff.mpr ⟨hf, hl⟩

/-! ### The level of links -/

@[simp] theorem level_cons (link : Link) (rest : List Link) :
    level (link :: rest) = link.operator.precedence := rfl

@[simp] theorem level_map (f : Expr → Expr) (links : List Link) :
    level (links.map (Link.map f)) = level links := by
  cases links <;> rfl

theorem level_append {links links' : List Link} (h : level links = level links') :
    level (links ++ links') = level links' := by
  cases links with
  | nil => rfl
  | cons => exact h

theorem level_ne_zero {links : List Link} (h : links ≠ []) : level links ≠ 0 := by
  cases links with
  | nil => exact absurd rfl h
  | cons link rest =>
    rw [level_cons]
    cases link.operator <;> decide

theorem precedence?_chain {first : Expr} {links : List Link} {span : Span} (h : links ≠ []) :
    (chain first links span).precedence? = some (level links) := by
  cases links with
  | nil => exact absurd rfl h
  | cons => rfl

theorem isWrapped_chain (weak : Nat → Bool) (first : Expr) (links : List Link) (span : Span) :
    (chain first links span).isWrapped weak = (level links != 0 && weak (level links)) := by
  cases links with
  | nil => rfl
  | cons link rest =>
    have hne : level (link :: rest) ≠ 0 := level_ne_zero (List.cons_ne_nil link rest)
    rw [level_cons] at hne
    simp [isWrapped, hne]

theorem level_take_succ (links : List Link) (n : Nat) :
    level (links.take (n + 1)) = level links := by
  cases links <;> rfl

theorem level_of_forall {links : List Link} {n : Nat} (hne : links ≠ [])
    (h : ∀ link ∈ links, link.operator.precedence = n) : level links = n := by
  cases links with
  | nil => exact absurd rfl hne
  | cons link rest => exact h link (by simp)

/-! ### Shapes -/

/-- All operators of a chain are of the level of the first one. -/
def SameLevel (links : List Link) : Prop :=
  ∀ link ∈ links, link.operator.precedence = level links

theorem sameLevel_of_forall {links : List Link} {n : Nat}
    (h : ∀ link ∈ links, link.operator.precedence = n) : SameLevel links := by
  intro link hm
  rw [h link hm, level_of_forall (List.ne_nil_of_mem hm) h]

/-- The operators of each chain are of one level. -/
def IsLevelled : Expr → Prop := Everywhere (fun _ => True) fun _ links => SameLevel links

/-- Each chain has at least one link and operators of one level. -/
def IsRegular : Expr → Prop := Everywhere (fun _ => True) fun _ links => links ≠ [] ∧ SameLevel links

/-- A literal that is an integer without a sign. -/
def IsUnsigned (value : Literal) : Prop := ∃ n : Int64, value = .int n ∧ 0 ≤ n.toInt

/-- No literal needs a sign, and each chain has at least one link and operators of one level. -/
def IsPlain : Expr → Prop :=
  Everywhere IsUnsigned fun _ links => links ≠ [] ∧ SameLevel links

/-- Plain, and no chain begins with a chain of its own level. -/
def IsFlat : Expr → Prop :=
  Everywhere IsUnsigned fun first links =>
    (links ≠ [] ∧ SameLevel links) ∧ first.precedence? ≠ some (level links)

theorem IsRegular.isLevelled {e : Expr} (h : e.IsRegular) : e.IsLevelled :=
  h.mono (fun _ _ => trivial) fun _ _ hn => hn.2

theorem IsFlat.isPlain {e : Expr} (h : e.IsFlat) : e.IsPlain :=
  h.mono (fun _ hv => hv) fun _ _ hn => hn.1

end Expr

end Abacus
