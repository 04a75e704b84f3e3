import Abacus.Proofs.Shape

/-!
# Splicing chains

The parentheses around a first operand that is a chain of the same level, as in `(1+2)+3`, are
not printed, because all levels group to the left. Reading such a text back gives one chain
where there were two. `splice` does the same to an expression: every chain takes in its first
operand if that is a chain of its own level.

Splicing changes neither what is printed (`samePrint_splice`) nor the literals and operators in
their order (`symbols_splice`). What becomes of a plain expression is flat
(`IsPlain.isFlat_splice`).
-/

namespace Abacus

namespace Expr

/-- A chain of a first operand and links. A first operand of the same level is not kept as an
operand: its links are followed by those of the chain. -/
def join (first : Expr) (links : List Link) (span : Span) : Expr :=
  match first with
  | literal .. => .chain first links span
  | chain first' links' _ =>
    if level links' = level links then .chain first' (links' ++ links) span
    else .chain first links span

mutual

/-- The expression with every first operand that is a chain of the level of the chain around it
spliced into that chain. -/
def splice : Expr → Expr
  | literal value span => .literal value span
  | chain first links span => join first.splice (spliceLinks links) span

/-- Links with spliced operands. -/
def spliceLinks : List Link → List Link
  | [] => []
  | ⟨operator, operand⟩ :: rest => ⟨operator, operand.splice⟩ :: spliceLinks rest

end

theorem spliceLinks_eq_map (links : List Link) :
    spliceLinks links = links.map (Link.map splice) := by
  induction links with
  | nil => rfl
  | cons link rest ih =>
    obtain ⟨operator, operand⟩ := link
    rw [spliceLinks, List.map_cons, ih]
    rfl

/-! ### Expressions that are printed alike -/

/-- Two expressions have the same text and are put into parentheses alike. -/
def SamePrint (e e' : Expr) : Prop :=
  e.text = e'.text ∧ ∀ weak, e.isWrapped weak = e'.isWrapped weak

theorem SamePrint.refl (e : Expr) : SamePrint e e := ⟨rfl, fun _ => rfl⟩

theorem SamePrint.symm {e e' : Expr} (h : SamePrint e e') : SamePrint e' e :=
  ⟨h.1.symm, fun weak => (h.2 weak).symm⟩

theorem SamePrint.trans {e e' e'' : Expr} (h : SamePrint e e') (h' : SamePrint e' e'') :
    SamePrint e e'' :=
  ⟨h.1.trans h'.1, fun weak => (h.2 weak).trans (h'.2 weak)⟩

section Map

variable {f : Expr → Expr} {first first' : Expr} {links : List Link}

theorem linksText_append (l : Nat) (links links' : List Link) :
    linksText l (links ++ links') = linksText l links ++ linksText l links' := by
  induction links with
  | nil => rfl
  | cons link rest ih =>
    obtain ⟨op, operand⟩ := link
    simp only [List.cons_append, linksText, ih, List.append_assoc]

/-- Links whose operands are printed alike have the same text. -/
theorem linksText_map (h : ∀ link ∈ links, SamePrint (f link.operand) link.operand) (l : Nat) :
    linksText l (links.map (Link.map f)) = linksText l links := by
  induction links with
  | nil => rfl
  | cons link rest ih =>
    obtain ⟨op, operand⟩ := link
    rw [List.forall_mem_cons] at h
    obtain ⟨⟨htext, hwrapped⟩, hrest⟩ := h
    simp only [List.map_cons, Link.map, linksText]
    rw [htext, hwrapped, ih hrest]

/-- Chains whose operands are printed alike have the same text up to each link. -/
theorem leadingText_map (hf : SamePrint first' first)
    (hl : ∀ link ∈ links, SamePrint (f link.operand) link.operand) (index : Nat) :
    leadingText first' (links.map (Link.map f)) index = leadingText first links index := by
  rw [leadingText, leadingText, level_map, hf.1, hf.2, ← List.map_take,
    linksText_map fun link hm => hl link (List.mem_of_mem_take hm)]

theorem SamePrint.chain (hf : SamePrint first' first)
    (hl : ∀ link ∈ links, SamePrint (f link.operand) link.operand) (span' span : Span) :
    SamePrint (.chain first' (links.map (Link.map f)) span') (.chain first links span) := by
  constructor
  · rw [text, text, level_map, hf.1, hf.2, linksText_map hl]
  · intro weak
    rw [isWrapped_chain, isWrapped_chain, level_map]

end Map

/-- A span is not printed. -/
theorem samePrint_withSpan (span : Span) (e : Expr) : SamePrint (e.withSpan span) e := by
  cases e <;> exact ⟨rfl, fun _ => rfl⟩

theorem samePrint_ofChain (first : Expr) {links : List Link} (h : links ≠ []) (span : Span) :
    SamePrint (ofChain first links) (chain first links span) := by
  obtain ⟨span', hchain⟩ := exists_ofChain_eq first h
  rw [hchain]
  exact ⟨rfl, fun _ => rfl⟩

/-- Spans are not printed. -/
theorem samePrint_eraseSpans (e : Expr) : SamePrint e.eraseSpans e := by
  induction e using Expr.induction with
  | literal value span => exact ⟨rfl, fun _ => rfl⟩
  | chain first links span ihf ihl =>
    rw [eraseSpans, eraseLinkSpans_eq_map]
    exact ihf.chain ihl default span

/-! ### What is printed for a spliced expression -/

/-- A first operand of the level of the chain is printed without parentheses. -/
theorem wrapIf_isWrapped_of_level_eq {links links' : List Link} (h : level links' = level links)
    (first : Expr) (span : Span) :
    wrapIf ((chain first links' span).isWrapped (· < level links)) (chain first links' span).text =
      wrapIf (first.isWrapped (· < level links)) first.text ++ linksText (level links) links' := by
  have hwrapped : (chain first links' span).isWrapped (· < level links) = false := by
    rw [isWrapped_chain, h]
    simp
  rw [hwrapped, text, h]
  rfl

theorem samePrint_join (first : Expr) (links : List Link) (span : Span) :
    SamePrint (join first links span) (chain first links span) := by
  cases first with
  | literal value span' => exact .refl _
  | chain first' links' span' =>
    rw [join]
    by_cases h : level links' = level links
    · rw [if_pos h]
      constructor
      · rw [text, text, level_append h, wrapIf_isWrapped_of_level_eq h, linksText_append,
          List.append_assoc]
      · intro weak
        rw [isWrapped_chain, isWrapped_chain, level_append h]
    · rw [if_neg h]
      exact .refl _

/-- **Splicing changes nothing that is printed.** -/
theorem samePrint_splice (e : Expr) : SamePrint e.splice e := by
  induction e using Expr.induction with
  | literal value span => exact .refl _
  | chain first links span ihf ihl =>
    rw [splice, spliceLinks_eq_map]
    exact (samePrint_join _ _ span).trans (ihf.chain ihl span span)

/-! ### Literals and operators of a spliced expression -/

theorem linkSymbols_append (links links' : List Link) :
    linkSymbols (links ++ links') = linkSymbols links ++ linkSymbols links' := by
  induction links with
  | nil => rfl
  | cons link rest ih =>
    obtain ⟨op, operand⟩ := link
    simp only [List.cons_append, linkSymbols, ih, List.append_assoc]

theorem symbols_join (first : Expr) (links : List Link) (span : Span) :
    (join first links span).symbols = first.symbols ++ linkSymbols links := by
  cases first with
  | literal value span' => rfl
  | chain first' links' span' =>
    rw [join]
    by_cases h : level links' = level links
    · rw [if_pos h, symbols, symbols, linkSymbols_append, List.append_assoc]
    · rw [if_neg h, symbols]

theorem linkSymbols_map {f : Expr → Expr} {links : List Link}
    (h : ∀ link ∈ links, (f link.operand).symbols = link.operand.symbols) :
    linkSymbols (links.map (Link.map f)) = linkSymbols links := by
  induction links with
  | nil => rfl
  | cons link rest ih =>
    obtain ⟨op, operand⟩ := link
    rw [List.forall_mem_cons] at h
    obtain ⟨hoperand, hrest⟩ := h
    simp only [List.map_cons, Link.map, linkSymbols]
    rw [hoperand, ih hrest]

/-- Splicing keeps the literals and operators, and their order. -/
theorem symbols_splice (e : Expr) : e.splice.symbols = e.symbols := by
  induction e using Expr.induction with
  | literal value span => rfl
  | chain first links span ihf ihl =>
    rw [splice, spliceLinks_eq_map, symbols_join, ihf, linkSymbols_map ihl, symbols]

theorem symbols_eraseSpans (e : Expr) : e.eraseSpans.symbols = e.symbols := by
  induction e using Expr.induction with
  | literal value span => rfl
  | chain first links span ihf ihl =>
    rw [eraseSpans, eraseLinkSpans_eq_map, symbols, ihf, linkSymbols_map ihl, symbols]

/-! ### Splicing makes flat -/

theorem SameLevel.map {links : List Link} (h : SameLevel links) (f : Expr → Expr) :
    SameLevel (links.map (Link.map f)) := by
  intro link hm
  obtain ⟨link', hm', rfl⟩ := List.mem_map.mp hm
  rw [Link.operator_map, level_map]
  exact h link' hm'

theorem SameLevel.append {links links' : List Link} (h : SameLevel links)
    (h' : SameLevel links') (heq : level links = level links') : SameLevel (links ++ links') := by
  intro link hm
  rw [level_append heq]
  rcases List.mem_append.mp hm with hm | hm
  · rw [h link hm, heq]
  · exact h' link hm

/-- Joining flat operands gives a flat expression. -/
theorem IsFlat.join {first : Expr} {links : List Link} (hf : first.IsFlat) (hne : links ≠ [])
    (hs : SameLevel links) (hl : ∀ link ∈ links, link.operand.IsFlat) (span : Span) :
    (join first links span).IsFlat := by
  cases first with
  | literal value span' => exact .chain ⟨⟨hne, hs⟩, by simp [precedence?, operator?]⟩ hf hl
  | chain first' links' span' =>
    obtain ⟨⟨⟨hne', hs'⟩, hlevel⟩, hf', hl'⟩ := everywhere_chain_iff.mp hf
    rw [Expr.join]
    by_cases h : level links' = level links
    · -- the operands of both chains become operands of one
      rw [if_pos h]
      refine .chain ⟨⟨?_, hs'.append hs h⟩, ?_⟩ hf' ?_
      · exact List.append_ne_nil_of_right_ne_nil links' hne
      · rw [level_append h, ← h]
        exact hlevel
      · rw [List.forall_mem_append]
        exact ⟨hl', hl⟩
    · rw [if_neg h]
      refine .chain ⟨⟨hne, hs⟩, ?_⟩ hf hl
      rw [precedence?_chain hne', Ne, Option.some.injEq]
      exact h

/-- **A spliced plain expression is flat.** -/
theorem IsPlain.isFlat_splice {e : Expr} (h : e.IsPlain) : e.splice.IsFlat := by
  induction h with
  | literal hv => exact .literal hv
  | @chain first links span hn _ _ ihf ihl =>
    rw [splice, spliceLinks_eq_map]
    refine ihf.join ?_ (hn.2.map splice) ?_ span
    · rw [Ne, List.map_eq_nil_iff]
      exact hn.1
    · intro link hm
      obtain ⟨link', hm', rfl⟩ := List.mem_map.mp hm
      exact ihl link' hm'

end Expr

end Abacus
