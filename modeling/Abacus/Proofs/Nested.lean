import Mathlib.Data.List.Induction
import Abacus.Proofs.ReducedValue
import Abacus.Proofs.SplicedValue

/-!
# Chains and nested operators

A chain stands for operators that are applied one after the other, each to the result so far.
With one binary expression for each operator the same is a tree that is nested to the left, as
deep as the chain is long (`nested`). The two are the same to everybody who looks at them from
outside: they have one span, are printed alike, evaluate to the same value or the same error, and
have the same value when they are reduced first (`ofChain_agrees_with_nested`).

The operators have to be of one level, or else the nested expression would need parentheses that
the chain does not have. The operands may be any expressions, but their spans have to begin and
end from left to right: then the span of a leading part is put together from its first and its
last operand, whatever is between them. Each statement is proved by taking off the last link,
since that is the outermost operator of the nested expression.
-/

namespace Abacus

/-- What lies between two spans is covered by the two. -/
theorem Span.Ascending.cover_cover_last {a b c : Span} {spans : List Span}
    (h : Ascending (a :: spans ++ [c])) (hb : b ∈ spans) : (a.cover b).cover c = a.cover c := by
  rw [Ascending, List.cons_append, List.pairwise_cons, List.pairwise_append] at h
  obtain ⟨ha, -, -, hc⟩ := h
  obtain ⟨hstart, -⟩ := ha b (List.mem_append_left _ hb)
  obtain ⟨-, hstop⟩ := hc b hb c (List.mem_singleton_self c)
  simp only [Span.cover, Span.mk.injEq]
  omega

namespace Expr

/-- Binary expressions for the links of a chain, each the left operand of the next one. -/
def nested (first : Expr) (links : List Link) : Expr :=
  links.foldl (fun left link => binary left link.operator link.operand) first

variable {first : Expr} {links : List Link} {link : Link}

@[simp] theorem nested_nil (first : Expr) : nested first [] = first := rfl

/-- The last link is the outermost operator. -/
@[simp] theorem nested_concat (first : Expr) (links : List Link) (link : Link) :
    nested first (links ++ [link]) = ofChain (nested first links) [link] := by
  obtain ⟨operator, operand⟩ := link
  rw [nested, List.foldl_append, List.foldl_cons, List.foldl_nil, ← nested, binary]

/-! ### All but the last link -/

theorem SameLevel.of_append_left {links' : List Link} (h : SameLevel (links ++ links')) :
    SameLevel links :=
  sameLevel_of_forall fun _ hm => h _ (List.mem_append_left _ hm)

theorem SameLevel.level_eq_of_concat (h : SameLevel (links ++ [link])) (hne : links ≠ []) :
    level links = level [link] := by
  have hlast := h link (List.mem_append_right _ (List.mem_singleton_self link))
  cases links with
  | nil => exact absurd rfl hne
  | cons head rest => exact hlast.symm

theorem ascending_of_concat (h : Span.Ascending (first.span :: linkSpans (links ++ [link]))) :
    Span.Ascending (first.span :: linkSpans links) := by
  rw [linkSpans, List.map_append, ← List.cons_append] at h
  exact (List.pairwise_append.mp h).1

/-! ### Spans -/

/-- A chain ends with its last operand, so the operands before it add nothing to its span. -/
theorem span_ofChain_cover (h : Span.Ascending (first.span :: linkSpans (links ++ [link]))) :
    (ofChain first links).span.cover link.operand.span = first.span.cover link.operand.span := by
  rcases List.eq_nil_or_concat links with rfl | ⟨init, last, rfl⟩
  · rfl
  · rw [List.concat_eq_append] at h ⊢
    rw [ofChain_concat]
    rw [linkSpans, List.map_append, List.map_singleton] at h
    exact h.cover_cover_last (List.mem_map_of_mem (by simp))

theorem span_nested (h : Span.Ascending (first.span :: linkSpans links)) :
    (nested first links).span = (ofChain first links).span := by
  induction links using List.reverseRecOn with
  | nil => rfl
  | append_singleton links link ih =>
    calc (nested first (links ++ [link])).span
        = (nested first links).span.cover link.operand.span := by rw [nested_concat]; rfl
      _ = (ofChain first links).span.cover link.operand.span := by
          rw [ih (ascending_of_concat h)]
      _ = first.span.cover link.operand.span := span_ofChain_cover h
      _ = (ofChain first (links ++ [link])).span := by rw [ofChain_concat]; rfl

/-! ### What is printed -/

/-- The last link is printed after a chain as it is at the end of the chain. -/
theorem leadingText_ofChain_singleton (h : SameLevel (links ++ [link])) :
    leadingText (ofChain first links) [link] 0 =
      leadingText first (links ++ [link]) links.length := by
  by_cases hne : links = []
  · subst hne
    rfl
  · obtain ⟨span, hchain⟩ := exists_ofChain_eq first hne
    rw [hchain]
    exact (leadingText_append_right (h.level_eq_of_concat hne) first span 0).symm

theorem text_ofChain_of_ne_nil (h : links ≠ []) :
    (ofChain first links).text = leadingText first links (links.length - 1) := by
  obtain ⟨span, hchain⟩ := exists_ofChain_eq first h
  rw [hchain, text, leadingText, List.take_of_length_le (by omega)]

theorem leadingText_congr {first' : Expr} (h : SamePrint first' first) (links : List Link)
    (index : Nat) : leadingText first' links index = leadingText first links index := by
  have hmap : leadingText first' (links.map (Link.map id)) index = leadingText first links index :=
    leadingText_map h (fun _ _ => .refl _) index
  rwa [Link.map_id, List.map_id] at hmap

theorem samePrint_nested (h : SameLevel links) :
    SamePrint (nested first links) (ofChain first links) := by
  induction links using List.reverseRecOn with
  | nil => exact .refl _
  | append_singleton links link ih =>
    rw [nested_concat]
    constructor
    · calc (ofChain (nested first links) [link]).text
          = leadingText (nested first links) [link] 0 :=
            text_ofChain_of_ne_nil (List.cons_ne_nil link [])
        _ = leadingText (ofChain first links) [link] 0 :=
            leadingText_congr (ih h.of_append_left) [link] 0
        _ = leadingText first (links ++ [link]) links.length := leadingText_ofChain_singleton h
        _ = (ofChain first (links ++ [link])).text := by
            rw [text_ofChain_of_ne_nil (by simp), List.length_append, List.length_singleton,
              Nat.add_sub_cancel]
    · intro weak
      have hlevel : level (links ++ [link]) = level [link] := by
        by_cases hne : links = []
        · rw [hne, List.nil_append]
        · exact level_append (h.level_eq_of_concat hne)
      rw [ofChain_concat, isWrapped_chain, hlevel]
      exact isWrapped_chain weak (nested first links) [link] _

/-! ### Evaluating -/

variable {pow : Binary64 → Binary64 → Binary64}

/-- Links have the same outcome if the errors of their operations are the same. -/
theorem evaluateLinks_congr {blame blame' : Nat → ArithmeticFault → EvalError}
    {index index' : Nat}
    (h : ∀ i < links.length, ∀ fault, blame' (index' + i) fault = blame (index + i) fault)
    (acc : Value) :
    evaluateLinks pow blame' acc index' links = evaluateLinks pow blame acc index links := by
  induction links generalizing acc index index' with
  | nil => rfl
  | cons link rest ih =>
    obtain ⟨op, operand⟩ := link
    rw [evaluateLinks, evaluateLinks]
    congr 1
    funext right
    cases Value.apply pow op acc right with
    | error fault => exact congrArg Except.error (h 0 (by simp) fault)
    | ok result =>
      refine ih (fun i hi fault => ?_) _
      have hnext := h (i + 1) (by rw [List.length_cons]; omega) fault
      rwa [show index' + 1 + i = index' + (i + 1) by omega,
        show index + 1 + i = index + (i + 1) by omega]

/-- The error of an operation in a chain with the span of its operands: it has the text and the
span of the chain up to that operation. -/
def blameLeading (first : Expr) (links : List Link) (index : Nat) (fault : ArithmeticFault) :
    EvalError :=
  .ofFault fault (leadingText first links index) (leadingSpan first links index)

theorem evaluate_ofChain (first : Expr) (links : List Link) :
    (ofChain first links).evaluate pow = first.evaluate pow >>= fun start =>
      evaluateLinks pow (blameLeading first links) start 0 links := by
  rcases List.eq_nil_or_concat links with rfl | ⟨init, last, rfl⟩
  · rw [ofChain_nil]
    cases first.evaluate pow <;> rfl
  · rw [List.concat_eq_append, ofChain_concat, evaluate]
    congr 1
    funext start
    refine evaluateLinks_congr (fun i hi fault => ?_) start
    rw [Nat.zero_add, blame, blameLeading]
    congr 1
    -- the span of the whole chain is that of the part up to the last link
    split
    · next hlast =>
      have hi : i = init.length := by simpa using hlast
      rw [hi, leadingSpan]
      simp
    · rfl

/-- Up to a link, it makes no difference how a chain goes on. -/
theorem blameLeading_append (h : SameLevel (links ++ [link])) {index : Nat}
    (hi : index < links.length) (fault : ArithmeticFault) :
    blameLeading first links index fault = blameLeading first (links ++ [link]) index fault := by
  have hne : links ≠ [] := List.ne_nil_of_length_pos (by omega)
  rw [blameLeading, blameLeading, leadingText_append_left (h.level_eq_of_concat hne) first hi,
    leadingSpan, leadingSpan, List.getElem?_append_left hi]

/-- The last operation of a chain is blamed like the outermost one of the nested expression. -/
theorem blameLeading_nested (h : SameLevel (links ++ [link]))
    (ho : Span.Ascending (first.span :: linkSpans (links ++ [link]))) (fault : ArithmeticFault) :
    blameLeading (nested first links) [link] 0 fault =
      blameLeading first (links ++ [link]) links.length fault := by
  have htext : leadingText (nested first links) [link] 0 =
      leadingText first (links ++ [link]) links.length :=
    (leadingText_congr (samePrint_nested h.of_append_left) [link] 0).trans
      (leadingText_ofChain_singleton h)
  have hspan : leadingSpan (nested first links) [link] 0 =
      leadingSpan first (links ++ [link]) links.length := by
    simp only [leadingSpan, List.getElem?_cons_zero, List.getElem?_concat_length]
    rw [span_nested (ascending_of_concat ho), span_ofChain_cover ho]
  rw [blameLeading, blameLeading, htext, hspan]

/-- **A nested expression evaluates like the chain**, to the same value or the same error. -/
theorem evaluate_nested (h : SameLevel links)
    (ho : Span.Ascending (first.span :: linkSpans links)) :
    (nested first links).evaluate pow = (ofChain first links).evaluate pow := by
  induction links using List.reverseRecOn with
  | nil => rfl
  | append_singleton links link ih =>
    rw [nested_concat, evaluate_ofChain, ih h.of_append_left (ascending_of_concat ho),
      evaluate_ofChain, evaluate_ofChain, bind_assoc]
    congr 1
    funext start
    rw [evaluateLinks_append]
    congr 1
    · exact evaluateLinks_congr
        (fun i hi fault => by rw [Nat.zero_add]; exact blameLeading_append h hi fault) start
    · funext acc
      refine evaluateLinks_congr (fun i hi fault => ?_) acc
      obtain rfl : i = 0 := by simpa using hi
      rw [Nat.zero_add, Nat.add_zero, Nat.zero_add]
      exact blameLeading_nested h ho fault

/-! ### Reducing -/

theorem countLinks_append (op : Operator) (links links' : List Link) :
    countLinks op (links ++ links') = countLinks op links + countLinks op links' := by
  induction links with
  | nil => rw [List.nil_append, countLinks, Nat.zero_add]
  | cons link rest ih =>
    obtain ⟨operator, operand⟩ := link
    rw [List.cons_append, countLinks, countLinks, ih, ← Nat.add_assoc]

theorem count_ofChain (op : Operator) (first : Expr) (links : List Link) :
    (ofChain first links).count op = first.count op + countLinks op links := by
  by_cases h : links = []
  · rw [h, ofChain_nil, countLinks, Nat.add_zero]
  · obtain ⟨span, hchain⟩ := exists_ofChain_eq first h
    rw [hchain, count]

theorem count_nested (op : Operator) (first : Expr) (links : List Link) :
    (nested first links).count op = (ofChain first links).count op := by
  induction links using List.reverseRecOn with
  | nil => rfl
  | append_singleton links link ih =>
    rw [nested_concat, count_ofChain, ih, count_ofChain, count_ofChain, countLinks_append,
      Nat.add_assoc]

theorem linksReducedValue?_append (links links' : List Link) (acc : Value) :
    linksReducedValue? pow acc (links ++ links') =
      (linksReducedValue? pow acc links).bind fun value =>
        linksReducedValue? pow value links' := by
  induction links generalizing acc with
  | nil => rfl
  | cons link rest ih =>
    rw [List.cons_append, linksReducedValue?, linksReducedValue?]
    simp only [Option.bind_assoc, ih]

/-- The value of a reduced chain with the span of its operands. -/
theorem value?_reduceNode_ofChain (h : SameLevel links) (first : Expr) :
    (((ofChain first links).reduceNode pow).outcome.toOption.bind (value? pow)) =
      ((first.reduceNode pow).outcome.toOption.bind (value? pow)).bind fun acc =>
        linksReducedValue? pow acc links := by
  by_cases hne : links = []
  · rw [hne, ofChain_nil]
    simp [linksReducedValue?]
  · obtain ⟨span, hchain⟩ := exists_ofChain_eq first hne
    rw [hchain, value?_reduceNode_chain h.powersOnly]

theorem value?_reduceNode_nested (h : SameLevel links) (first : Expr) :
    (((nested first links).reduceNode pow).outcome.toOption.bind (value? pow)) =
      ((ofChain first links).reduceNode pow).outcome.toOption.bind (value? pow) := by
  induction links using List.reverseRecOn with
  | nil => rfl
  | append_singleton links link ih =>
    have hlink : SameLevel [link] := sameLevel_of_forall fun _ hm => by
      rw [List.mem_singleton.mp hm]
    rw [nested_concat, value?_reduceNode_ofChain hlink, ih h.of_append_left,
      value?_reduceNode_ofChain h.of_append_left, value?_reduceNode_ofChain h, Option.bind_assoc]
    congr 1
    funext acc
    rw [linksReducedValue?_append]

/-- **A nested expression has the value of the chain** also when powers are reduced first. -/
theorem value?_reduce_nested (h : SameLevel links)
    (ho : Span.Ascending (first.span :: linkSpans links)) :
    (((nested first links).reduce pow).outcome.toOption.bind (value? pow)) =
      ((ofChain first links).reduce pow).outcome.toOption.bind (value? pow) := by
  rw [bind_value?_reduce, bind_value?_reduce, count_nested, value?, value?, evaluate_nested h ho,
    value?_reduceNode_nested h]

/-- **Chains and nested operators agree**: a chain of operators of one level, whose operands begin
and end from left to right, has the span and the text of the expression that is nested to the
left. Both evaluate to the same value or to the same error, with one text and one span. If one has
a value after its powers are reduced, the other has it too. -/
theorem ofChain_agrees_with_nested (pow : Binary64 → Binary64 → Binary64) (first : Expr)
    (links : List Link) (h : SameLevel links)
    (ho : Span.Ascending (first.span :: linkSpans links)) :
    (ofChain first links).span = (nested first links).span ∧
    (ofChain first links).text = (nested first links).text ∧
    (ofChain first links).evaluate pow = (nested first links).evaluate pow ∧
    ∀ value,
      (∃ reduced, ((ofChain first links).reduce pow).outcome = .ok reduced ∧
        reduced.evaluate pow = .ok value) ↔
      ∃ reduced, ((nested first links).reduce pow).outcome = .ok reduced ∧
        reduced.evaluate pow = .ok value := by
  refine ⟨(span_nested ho).symm, (samePrint_nested h).1.symm, (evaluate_nested h ho).symm, ?_⟩
  intro value
  have hiff : ∀ e : Expr, (∃ reduced, (e.reduce pow).outcome = .ok reduced ∧
      reduced.evaluate pow = .ok value) ↔
        (e.reduce pow).outcome.toOption.bind (value? pow) = some value := by
    intro e
    simp only [Option.bind_eq_some_iff, value?, Except.toOption_eq_some_iff]
  rw [hiff, hiff, value?_reduce_nested h ho]

/-- `0-2147483647-2-1` overflows at its second operator, as a chain and as nested operators. -/
theorem difference_agrees_with_nested :
    SameLevel [⟨.sub, literal (.int 2147483647) ⟨2, 12⟩⟩, ⟨.sub, literal (.int 2) ⟨13, 14⟩⟩,
      ⟨.sub, literal (.int 1) ⟨15, 16⟩⟩] ∧
    Span.Ascending [⟨0, 1⟩, ⟨2, 12⟩, ⟨13, 14⟩, ⟨15, 16⟩] ∧
    (nested (literal (.int 0) ⟨0, 1⟩) [⟨.sub, literal (.int 2147483647) ⟨2, 12⟩⟩,
      ⟨.sub, literal (.int 2) ⟨13, 14⟩⟩, ⟨.sub, literal (.int 1) ⟨15, 16⟩⟩]).text =
        "0-2147483647-2-1".toList ∧
    (nested (literal (.int 0) ⟨0, 1⟩) [⟨.sub, literal (.int 2147483647) ⟨2, 12⟩⟩,
      ⟨.sub, literal (.int 2) ⟨13, 14⟩⟩, ⟨.sub, literal (.int 1) ⟨15, 16⟩⟩]).evaluate
        (fun x _ => x) = .error (.overflow "0-2147483647-2".toList ⟨0, 14⟩) := by
  have hlevel : SameLevel [⟨.sub, literal (.int 2147483647) ⟨2, 12⟩⟩,
      ⟨.sub, literal (.int 2) ⟨13, 14⟩⟩, ⟨.sub, literal (.int 1) ⟨15, 16⟩⟩] :=
    sameLevel_of_forall (n := 1) (by simp [Operator.precedence])
  have hspans : Span.Ascending [⟨0, 1⟩, ⟨2, 12⟩, ⟨13, 14⟩, ⟨15, 16⟩] := by
    simp [Span.Ascending]
  obtain ⟨-, htext, hevaluate, -⟩ :=
    ofChain_agrees_with_nested (fun x _ => x) (literal (.int 0) ⟨0, 1⟩) _ hlevel hspans
  exact ⟨hlevel, hspans, htext.symm, hevaluate.symm⟩

end Expr

end Abacus
