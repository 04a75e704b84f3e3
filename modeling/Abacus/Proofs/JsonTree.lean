import Abacus.Proofs.JsonText
import Abacus.Expr.Json

/-!
# Expressions that are written as JSON are read back

The JSON form of an expression gives the expression back if no more arrays and objects are nested in
it than the reader is allowed to enter, and otherwise the reader gives up (`ofJson?_toJson`). This is
exact: what a reader counts on its way is what is nested in the form (`Json.depth`). With the text in
between, which is read without any limit, an expression is read back from what is written for it
(`ofJsonText?_jsonText`).

Two things can be lost on the way to JSON, and `IsWritable` says that they are not there: offsets past
64 bits, and doubles whose decimal digits are not read as the same double. Shapes do not matter. Chains
without links or with operators of several levels are read back like others.
-/

namespace Abacus

/-- Only zero is written with a leading zero. -/
theorem Text.head?_ofNat {n : Nat} (h : n ≠ 0) : (Text.ofNat n).head? ≠ some '0' := by
  induction n using Nat.strongRecOn with
  | ind n ih =>
    by_cases hn : n < 10
    · rw [Text.ofNat, Nat.toDigits_of_lt_base hn]
      have hdigit : ∀ m < 10, m ≠ 0 → [Nat.digitChar m].head? ≠ some '0' := by decide
      exact hdigit n hn h
    · have hq : n / 10 ≠ 0 := by omega
      rw [Text.ofNat, Nat.toDigits_of_base_le (by decide) (by omega),
        List.head?_append_of_ne_nil _ Nat.toDigits_ne_nil]
      exact ih _ (by omega) hq

namespace JsonNumber

theorem isWellFormed_ofInt (n : Int) : (ofInt n).IsWellFormed where
  isWhole := by
    have hne : Text.ofNat n.natAbs ≠ [] := Nat.toDigits_ne_nil
    by_cases h : n.natAbs = 0
    · simp only [ofInt, h]
      rfl
    · simp [isWhole, ofInt, hne, Text.head?_ofNat h]
  whole := fun c hc => Text.isDigit_of_mem_ofNat hc
  fraction := by
    intro places h
    cases h

theorem toInt?_ofInt (n : Int) : (ofInt n).toInt? = some n := by
  simp only [toInt?, ofInt, Text.toNat_ofNat, Option.isSome_none, Bool.or_self, Bool.false_eq_true,
    if_false, decide_eq_true_eq]
  by_cases h : n < 0
  · rw [if_pos h, if_neg (by omega), Option.some.injEq]
    omega
  · rw [if_neg h, Option.some.injEq]
    omega

end JsonNumber

namespace Json

mutual

/-- How many arrays and objects are nested in a value. -/
def depth : Json → Nat
  | array items => itemsDepth items + 1
  | object members => membersDepth members + 1
  | _ => 0

/-- How many arrays and objects are nested in items. -/
def itemsDepth : List Json → Nat
  | [] => 0
  | item :: items => max item.depth (itemsDepth items)

/-- How many arrays and objects are nested in the values of members. -/
def membersDepth : List (Text × Json) → Nat
  | [] => 0
  | (_, value) :: members => max value.depth (membersDepth members)

end

/-- A name that needs no escapes. -/
def IsName (name : String) : Prop := Escape.text? name.toList = some name.toList

instance (name : String) : Decidable (IsName name) :=
  inferInstanceAs (Decidable (Escape.text? name.toList = some name.toList))

/-- Both fields of a record with two fields are found. -/
theorem pair?_record {first second : String} (hf : IsName first) (hs : IsName second)
    (hne : first.toList ≠ second.toList) (x y : Json) :
    (record [(first, x), (second, y)]).pair? first second = some (x, y) := by
  simp only [IsName] at hf hs
  simp [pair?, fields?, record, valuesOf, hf, hs, hne, hne.symm]

theorem variant?_record {name : String} (h : IsName name) (x : Json) :
    (record [(name, x)]).variant? = some (name.toList, x) := by
  simp only [IsName] at h
  simp [variant?, record, h]

/-- A record is written if its fields are. -/
theorem isWellFormed_record {names : List String} (hn : ∀ name ∈ names, IsName name)
    {fields : List (String × Json)} (hf : fields.map Prod.fst = names)
    (h : ∀ field ∈ fields, field.2.IsWellFormed) : (record fields).IsWellFormed := by
  refine .object ?_ ?_
  · intro member hm
    obtain ⟨field, hfield, rfl⟩ := List.mem_map.mp hm
    have hpieces := hn field.1 (hf ▸ List.mem_map_of_mem hfield)
    rw [IsName, Escape.text?, Option.bind_eq_some_iff] at hpieces
    obtain ⟨pieces, hpieces, -⟩ := hpieces
    exact Option.isSome_of_eq_some hpieces
  · intro member hm
    obtain ⟨field, hfield, rfl⟩ := List.mem_map.mp hm
    exact h field hfield

end Json

/-! ### Parts of an expression -/

/-- Both bounds are numbers of 64 bits. -/
def Span.IsWord (span : Span) : Prop :=
  span.start < 18446744073709551616 ∧ span.stop < 18446744073709551616

namespace Json

theorem toWord?_nat {n : Nat} (h : n < 18446744073709551616) : (nat n).toWord? = some n := by
  have hfits : (decide (0 ≤ (n : Int)) && decide ((n : Int) < 18446744073709551616)) = true := by
    rw [Bool.and_eq_true, decide_eq_true_iff, decide_eq_true_iff]
    omega
  rw [nat, toWord?, JsonNumber.toInt?_ofInt, Option.bind_eq_bind, Option.bind_some, if_pos hfits,
    Int.toNat_natCast]

theorem toInt64?_ofInt (n : Int64) : (number (.ofInt n.toInt)).toInt64? = some n := by
  have hfits : Value.fits64 n.toInt := by
    have hlow := n.le_toInt
    have hhigh := n.toInt_lt
    rw [Value.fits64, Bool.and_eq_true, decide_eq_true_iff, decide_eq_true_iff]
    omega
  simp [toInt64?, JsonNumber.toInt?_ofInt, hfits]

end Json

theorem Span.ofJson?_eq {json a b : Json} (h : json.pair? "start" "end" = some (a, b))
    {start stop : Nat} (ha : a.toWord? = some start) (hb : b.toWord? = some stop) :
    Span.ofJson? json = some ⟨start, stop⟩ := by
  rw [Span.ofJson?, h, Option.bind_eq_bind, Option.bind_some]
  simp only [ha, hb, Option.bind_eq_bind, Option.bind_some]
  rfl

theorem Span.ofJson?_toJson {span : Span} (h : span.IsWord) : Span.ofJson? span.toJson = some span :=
  Span.ofJson?_eq (Json.pair?_record (by decide) (by decide) (by decide) _ _)
    (Json.toWord?_nat h.1) (Json.toWord?_nat h.2)

theorem Operator.ofJson?_name (op : Operator) (depth : Nat) :
    Operator.ofJson? depth (.string op.name.toList) = some op := by
  cases op <;> rfl

/-- A literal that is read back from its JSON form: an integer, or a finite double whose decimal
digits are read as this double. -/
def Literal.IsWritable : Literal → Prop
  | int _ => True
  | real x => x.isFinite ∧ (JsonNumber.ofReal x).IsWellFormed ∧ (JsonNumber.ofReal x).toReal? = some x

theorem Literal.ofJson?_toJson {value : Literal} (h : value.IsWritable) :
    Literal.ofJson? value.toJson = some value := by
  cases value with
  | int n =>
    rw [Literal.ofJson?, Literal.toJson, Json.variant?_record (by decide), Option.bind_eq_bind,
      Option.bind_some]
    dsimp only
    rw [if_pos rfl, Json.toInt64?_ofInt, Option.map_some]
  | real x =>
    obtain ⟨hfinite, -, hread⟩ := h
    rw [Literal.ofJson?, Literal.toJson, Json.variant?_record (by decide), if_pos hfinite,
      Option.bind_eq_bind, Option.bind_some]
    dsimp only
    rw [if_neg (by decide), if_pos rfl, Json.toReal?, hread, Option.map_some]

theorem Literal.IsWritable.isWellFormed_toJson {value : Literal} (h : value.IsWritable) :
    value.toJson.IsWellFormed := by
  cases value with
  | int n =>
    have hint : (Json.number (.ofInt n.toInt)).IsWellFormed :=
      .number (JsonNumber.isWellFormed_ofInt _)
    exact @Json.isWellFormed_record ["Int"] (by decide) _ rfl (by simpa using hint)
  | real x =>
    obtain ⟨hfinite, hx, -⟩ := h
    exact @Json.isWellFormed_record ["Float"] (by decide) _ rfl (by simpa [hfinite] using .number hx)

namespace Expr

/-- An expression that is read back from its JSON form, if that is not nested too deeply. -/
inductive IsWritable : Expr → Prop where
  | literal {value : Literal} {span : Span} : value.IsWritable → span.IsWord →
      IsWritable (.literal value span)
  | chain {first : Expr} {links : List Link} {span : Span} : first.IsWritable →
      (∀ link ∈ links, link.operand.IsWritable) → span.IsWord → IsWritable (.chain first links span)

/-! ### Nesting -/

theorem depth_nodeJson (sort : String) (node : Json) (span : Span) :
    (nodeJson sort node span).depth = max node.depth 1 + 2 := by
  simp [nodeJson, Json.record, Json.depth, Json.membersDepth, Span.toJson, Json.nat]

@[simp] theorem depth_toJson_literal (value : Literal) (span : Span) :
    (literal value span).toJson.depth = 3 := by
  rw [toJson, depth_nodeJson]
  cases value with
  | int n => rfl
  | real x =>
    simp only [Literal.toJson]
    split <;> rfl

theorem depth_toJson_chain (first : Expr) (links : List Link) (span : Span) :
    (chain first links span).toJson.depth =
      max first.toJson.depth (Json.itemsDepth (linksJson links) + 1) + 3 := by
  rw [toJson, depth_nodeJson]
  simp [Json.record, Json.depth, Json.membersDepth]

theorem itemsDepth_linksJson_cons (op : Operator) (operand : Expr) (rest : List Link) :
    Json.itemsDepth (linksJson (⟨op, operand⟩ :: rest)) =
      max (operand.toJson.depth + 1) (Json.itemsDepth (linksJson rest)) := by
  simp [linksJson, Json.record, Json.depth, Json.itemsDepth, Json.membersDepth]

theorem three_le_depth_toJson (e : Expr) : 3 ≤ e.toJson.depth := by
  cases e with
  | literal value span => exact Nat.le_of_eq (depth_toJson_literal value span).symm
  | chain first links span => rw [depth_toJson_chain]; omega

/-! ### Reading -/

section

variable {json content node spanJson : Json} {span : Span}
  (hp : content.pair? "node" "span" = some (node, spanJson)) (hs : Span.ofJson? spanJson = some span)

include hp hs

theorem ofJson?_of_literal (hv : json.variant? = some ("Literal".toList, content)) (depth : Nat) :
    ofJson? (depth + 3) json = (Literal.ofJson? node).map (.literal · span) := by
  rw [ofJson?, hv, Option.bind_eq_bind, Option.bind_some]
  simp only [hp, hs, Option.bind_eq_bind, Option.bind_some]
  rfl

theorem ofJson?_of_chain (hv : json.variant? = some ("Chain".toList, content)) {first links : Json}
    (hn : node.pair? "first" "links" = some (first, links)) (depth : Nat) :
    ofJson? (depth + 3) json = (ofJson? depth first).bind fun first =>
      (linksOfJson? depth links).map fun links => chain first links span := by
  rw [ofJson?, hv, Option.bind_eq_bind, Option.bind_some]
  simp only [hp, hs, hn, Option.bind_eq_bind, Option.bind_some]
  rw [if_neg (by decide), if_pos trivial]
  cases ofJson? depth first with
  | none => rfl
  | some first =>
    cases linksOfJson? depth links with
    | none => rfl
    | some links => rfl

end

theorem ofJson?_toJson_literal {value : Literal} (hv : value.IsWritable) {span : Span}
    (hs : span.IsWord) (depth : Nat) :
    ofJson? (depth + 3) (literal value span).toJson = some (literal value span) := by
  have hread := ofJson?_of_literal
    (Json.pair?_record (by decide) (by decide) (by decide) value.toJson span.toJson)
    (Span.ofJson?_toJson hs) (Json.variant?_record (by decide) _) depth
  rw [Literal.ofJson?_toJson hv, Option.map_some] at hread
  exact hread

theorem ofJson?_toJson_chain (first : Expr) (links : List Link) {span : Span} (hs : span.IsWord)
    (depth : Nat) :
    ofJson? (depth + 3) (chain first links span).toJson =
      (ofJson? depth first.toJson).bind fun first =>
        (linksOfJson? depth (.array (linksJson links))).map fun links => chain first links span :=
  ofJson?_of_chain
    (Json.pair?_record (by decide) (by decide) (by decide)
      (.record [("first", first.toJson), ("links", .array (linksJson links))]) span.toJson)
    (Span.ofJson?_toJson hs) (Json.variant?_record (by decide) _)
    (Json.pair?_record (by decide) (by decide) (by decide) _ _) depth

theorem linksOfJson?_cons (depth : Nat) (op : Operator) (operand : Expr) (rest : List Link) :
    linksOfJson? (depth + 2) (.array (linksJson (⟨op, operand⟩ :: rest))) =
      (ofJson? depth operand.toJson).bind fun operand =>
        (linksOfJson? (depth + 2) (.array (linksJson rest))).map (⟨op, operand⟩ :: ·) := by
  have hpair := @Json.pair?_record "operator" "operand" (by decide) (by decide) (by decide)
    (.string op.name.toList) operand.toJson
  rw [linksOfJson?, linksJson, linksOfJson?, List.mapM_cons, hpair]
  simp only [Operator.ofJson?_name, Option.bind_eq_bind, Option.bind_some, Option.bind_assoc,
    Option.map_eq_bind, Option.pure_def]
  rfl

/-- Links are read back if all operands are. -/
theorem linksOfJson?_linksJson {depth : Nat} {links : List Link}
    (h : ∀ link ∈ links, ofJson? depth link.operand.toJson =
      if link.operand.toJson.depth ≤ depth then some link.operand else none) :
    linksOfJson? (depth + 2) (.array (linksJson links)) =
      if Json.itemsDepth (linksJson links) ≤ depth + 1 then some links else none := by
  induction links with
  | nil => rfl
  | cons link rest ih =>
    obtain ⟨op, operand⟩ := link
    rw [List.forall_mem_cons] at h
    rw [linksOfJson?_cons, h.1, ih h.2, itemsDepth_linksJson_cons]
    by_cases hoperand : operand.toJson.depth ≤ depth
    · by_cases hrest : Json.itemsDepth (linksJson rest) ≤ depth + 1
      · rw [if_pos hoperand, if_pos hrest, if_pos (by omega), Option.bind_some, Option.map_some]
      · rw [if_pos hoperand, if_neg hrest, if_neg (by omega), Option.bind_some, Option.map_none]
    · rw [if_neg hoperand, Option.bind_none, if_neg (by omega)]

theorem ofJson?_of_lt_three {depth : Nat} (h : depth < 3) (json : Json) :
    ofJson? depth json = none := by
  obtain rfl | rfl | rfl : depth = 0 ∨ depth = 1 ∨ depth = 2 := by omega
  · rfl
  · rfl
  · rfl

/-- **An expression is read back from its JSON form**, if the form is not nested too deeply. -/
theorem ofJson?_toJson {e : Expr} (h : e.IsWritable) (depth : Nat) :
    ofJson? depth e.toJson = if e.toJson.depth ≤ depth then some e else none := by
  induction h generalizing depth with
  | @literal value span hv hs =>
    rw [depth_toJson_literal]
    by_cases hdepth : depth < 3
    · rw [ofJson?_of_lt_three hdepth, if_neg (by omega)]
    · obtain ⟨depth, rfl⟩ := Nat.exists_eq_add_of_le' (Nat.le_of_not_lt hdepth)
      rw [ofJson?_toJson_literal hv hs, if_pos (by omega)]
  | @chain first links span _ _ hs ihf ihl =>
    rw [depth_toJson_chain]
    by_cases hdepth : depth < 3
    · rw [ofJson?_of_lt_three hdepth, if_neg (by omega)]
    obtain ⟨depth, rfl⟩ := Nat.exists_eq_add_of_le' (Nat.le_of_not_lt hdepth)
    rw [ofJson?_toJson_chain first links hs, ihf]
    by_cases hfirst : first.toJson.depth ≤ depth
    · -- there is room for an operand in front, hence for an array of links
      have hthree := three_le_depth_toJson first
      obtain ⟨depth, rfl⟩ := Nat.exists_eq_add_of_le' (show 2 ≤ depth by omega)
      rw [if_pos hfirst, linksOfJson?_linksJson fun link hm => ihl link hm depth, Option.bind_some]
      by_cases hlinks : Json.itemsDepth (linksJson links) ≤ depth + 1
      · rw [if_pos hlinks, if_pos (by omega), Option.map_some]
      · rw [if_neg hlinks, if_neg (by omega), Option.map_none]
    · rw [if_neg hfirst, Option.bind_none, if_neg (by omega)]

/-! ### Writing -/

theorem isWellFormed_nodeJson {sort : String} (hn : Json.IsName sort) {node : Json}
    (h : node.IsWellFormed) (span : Span) : (nodeJson sort node span).IsWellFormed := by
  have hnat : ∀ n, (Json.nat n).IsWellFormed := fun n => .number (JsonNumber.isWellFormed_ofInt n)
  have hspan : span.toJson.IsWellFormed :=
    @Json.isWellFormed_record ["start", "end"] (by decide) _ rfl (by simp [hnat])
  have hrecord : (Json.record [("node", node), ("span", span.toJson)]).IsWellFormed :=
    @Json.isWellFormed_record ["node", "span"] (by decide) _ rfl (by simp [h, hspan])
  exact @Json.isWellFormed_record [sort] (by simpa using hn) _ rfl (by simpa using hrecord)

theorem isWellFormed_linksJson {links : List Link}
    (h : ∀ link ∈ links, link.operand.toJson.IsWellFormed) :
    ∀ item ∈ linksJson links, item.IsWellFormed := by
  induction links with
  | nil =>
    intro item hm
    cases hm
  | cons link rest ih =>
    obtain ⟨op, operand⟩ := link
    rw [List.forall_mem_cons] at h
    have hop : (Json.string op.name.toList).IsWellFormed := .string (by cases op <;> decide)
    have hlink : (Json.record [("operator", .string op.name.toList),
        ("operand", operand.toJson)]).IsWellFormed :=
      @Json.isWellFormed_record ["operator", "operand"] (by decide) _ rfl (by simp [hop, h.1])
    exact List.forall_mem_cons.mpr ⟨hlink, ih h.2⟩

/-- An expression that can be read back can be written. -/
theorem IsWritable.isWellFormed_toJson {e : Expr} (h : e.IsWritable) : e.toJson.IsWellFormed := by
  induction h with
  | @literal value span hv _ =>
    exact isWellFormed_nodeJson (by decide) hv.isWellFormed_toJson span
  | @chain first links span _ _ _ ihf ihl =>
    have hlinks : (Json.array (linksJson links)).IsWellFormed := .array (isWellFormed_linksJson ihl)
    have hchain : (Json.record [("first", first.toJson),
        ("links", .array (linksJson links))]).IsWellFormed :=
      @Json.isWellFormed_record ["first", "links"] (by decide) _ rfl (by simp [ihf, hlinks])
    exact isWellFormed_nodeJson (by decide) hchain span

/-- **An expression is read back from its JSON text**, if at most `maxJsonDepth` arrays and objects
are nested in it; and otherwise it is not. -/
theorem ofJsonText?_jsonText {e : Expr} (h : e.IsWritable) :
    ofJsonText? e.jsonText = if e.toJson.depth ≤ maxJsonDepth then some e else none := by
  rw [ofJsonText?, jsonText, Json.ofText?_text h.isWellFormed_toJson, Option.bind_some,
    ofJson?_toJson h]

end Expr

end Abacus
