import Abacus.Diagnostic
import Abacus.Proofs.Rejection

/-!
# What a diagnostic underlines

The underline of a diagnostic begins within the text or just behind it, has at least one mark, and
goes at most one character past the end. If the span is that of a piece of the text, the marks stand
below the characters of this piece, and below the place of it if it is empty
(`Diagnostic.render_underlines_piece`).

Nothing is asked of the span for the first part. Two cuts are made with it that can fail
independently of each other: one before the span, for the column, and one at both its ends, for the
slice. So it is said first what it means that a cut succeeds, and that is that the text falls into
pieces of these sizes (`Text.slice?_eq_some_iff`). The second cut never succeeds without the first
one. If it fails there is one mark only, and nowhere is too far for that.
-/

namespace Abacus

namespace Text

variable {s t : Text} {n start stop : Nat}

/-! ### Cuts that succeed -/

theorem takeBytes?_eq_some_iff :
    takeBytes? n s = some t ↔ ∃ behind, s = t ++ behind ∧ n = byteSize t := by
  constructor
  · intro h
    fun_induction takeBytes? n s generalizing t with
    | case1 s =>
      obtain rfl := Option.some.inj h
      exact ⟨s, rfl, rfl⟩
    | case2 => cases h
    | case3 n c s hle ih =>
      obtain ⟨t, ht, rfl⟩ := Option.map_eq_some_iff.mp h
      obtain ⟨behind, rfl, hn⟩ := ih ht
      exact ⟨behind, rfl, by rw [byteSize_cons]; omega⟩
    | case4 => cases h
  · rintro ⟨behind, rfl, rfl⟩
    exact takeBytes?_append t behind

theorem dropBytes?_eq_some_iff :
    dropBytes? n s = some t ↔ ∃ before, s = before ++ t ∧ n = byteSize before := by
  constructor
  · intro h
    fun_induction dropBytes? n s with
    | case1 s =>
      obtain rfl := Option.some.inj h
      exact ⟨[], rfl, rfl⟩
    | case2 => cases h
    | case3 n c s hle ih =>
      obtain ⟨before, rfl, hn⟩ := ih h
      exact ⟨c :: before, rfl, by rw [byteSize_cons]; omega⟩
    | case4 => cases h
  · rintro ⟨before, rfl, rfl⟩
    exact dropBytes?_append before t

/-- **A slice is a piece of the text** that stands between the two offsets. -/
theorem slice?_eq_some_iff {piece : Text} :
    slice? s start stop = some piece ↔
      ∃ before behind, s = before ++ piece ++ behind ∧ start = byteSize before ∧
        stop = byteSize before + byteSize piece := by
  constructor
  · intro h
    rw [slice?, Option.ite_none_right_eq_some, Option.bind_eq_some_iff] at h
    obtain ⟨hle, rest, hdrop, htake⟩ := h
    obtain ⟨before, rfl, hstart⟩ := dropBytes?_eq_some_iff.mp hdrop
    obtain ⟨behind, rfl, hsize⟩ := takeBytes?_eq_some_iff.mp htake
    exact ⟨before, behind, (List.append_assoc before piece behind).symm, hstart, by omega⟩
  · rintro ⟨before, behind, rfl, rfl, rfl⟩
    exact slice?_append before piece behind

end Text

/-- A span marks a piece of a text if the text has this slice. -/
theorem Span.exists_marks_iff {span : Span} {piece s : Text} :
    (∃ before behind, span.Marks before piece behind s) ↔
      s.slice? span.start span.stop = some piece := by
  constructor
  · rintro ⟨before, behind, h⟩
    exact h.slice?
  · intro h
    obtain ⟨before, behind, htext, hstart, hstop⟩ := Text.slice?_eq_some_iff.mp h
    refine ⟨before, behind, htext, ?_⟩
    rw [← hstop, ← hstart]

namespace Diagnostic

variable {d : Diagnostic} {source before piece behind : Text}

/-! ### Columns and widths -/

theorem column_le (d : Diagnostic) (source : Text) : d.column source ≤ source.length := by
  rw [column]
  cases h : source.takeBytes? d.span.start with
  | none => exact Nat.le_refl _
  | some before =>
    obtain ⟨behind, rfl, -⟩ := Text.takeBytes?_eq_some_iff.mp h
    rw [Option.getD_some, List.length_append]
    exact Nat.le_add_right _ _

theorem one_le_width (d : Diagnostic) (source : Text) : 1 ≤ d.width source := Nat.le_max_right _ _

/-- A piece of the text is underlined from its column on. -/
theorem column_eq (h : d.span.Marks before piece behind source) :
    d.column source = before.length := by
  rw [column, h.span_eq, h.text_eq, List.append_assoc, Text.takeBytes?_append, Option.getD_some]

/-- A piece of the text is underlined in all its length. -/
theorem width_eq (h : d.span.Marks before piece behind source) :
    d.width source = max piece.length 1 := by
  rw [width, Span.slice, h.slice?, Option.getD_some]

theorem width_of_slice?_eq_none (h : source.slice? d.span.start d.span.stop = none) :
    d.width source = 1 := by
  rw [width, Span.slice, h, Option.getD_none]
  rfl

/-- **An underline does not run away**, whatever the span. -/
theorem column_add_width_le (d : Diagnostic) (source : Text) :
    d.column source + d.width source ≤ source.length + 1 := by
  cases h : source.slice? d.span.start d.span.stop with
  | none =>
    rw [width_of_slice?_eq_none h]
    exact Nat.succ_le_succ (d.column_le source)
  | some piece =>
    obtain ⟨before, behind, hmarks⟩ := Span.exists_marks_iff.mpr h
    rw [column_eq hmarks, width_eq hmarks, hmarks.text_eq, List.length_append, List.length_append]
    omega

/-- A span that begins inside of a character is shown behind the text. -/
example : (Diagnostic.mk "" ⟨2, 4⟩ none).column ['1', 'é', '+', '2'] = 4 := by decide

/-- The characters above the marks are those of the piece. -/
theorem take_drop_eq (h : d.span.Marks before piece behind source) (hne : piece ≠ []) :
    (source.drop (d.column source)).take (d.width source) = piece := by
  have hlength : max piece.length 1 = piece.length :=
    Nat.max_eq_left (List.length_pos_iff.mpr hne)
  rw [column_eq h, width_eq h, hlength, h.text_eq, List.append_assoc, List.drop_left, List.take_left]

/-- **What a diagnostic underlines**: the header names the column after the one where the underline
begins, and below the text there are that many blanks and then as many marks as the underline is
wide. There is at least one mark, and at most one is behind the end of the text. If the span marks a
piece of the text, the marks begin behind what is before it, and there is one for each of its
characters, and one if it has none. -/
theorem render_underlines_piece (d : Diagnostic) (source : Text) :
    1 ≤ d.width source ∧ d.column source + d.width source ≤ source.length + 1 ∧
    d.render source = "error: " ++ d.message ++
      "\n --> col " ++ toString (d.column source + 1) ++
      "\n  | " ++ String.ofList source ++
      "\n  | " ++ String.ofList (List.replicate (d.column source) ' ' ++
        '^' :: List.replicate (d.width source - 1) '~') ++
      d.help.elim "" ("\n  = help: " ++ ·) ∧
    ∀ before piece behind, d.span.Marks before piece behind source →
      d.span.slice source = piece ∧ d.column source = before.length ∧
      d.width source = max piece.length 1 ∧
      (piece ≠ [] → (source.drop (d.column source)).take (d.width source) = piece) := by
  refine ⟨d.one_le_width source, d.column_add_width_le source, ?_, fun before piece behind h => ?_⟩
  · rw [render, underline]
    cases d.help with
    | none => rfl
    | some advice => rfl
  · refine ⟨?_, column_eq h, width_eq h, take_drop_eq h⟩
    rw [Span.slice, h.slice?, Option.getD_some]

/-- `é+é` in `1é+é2` takes five bytes, and is underlined by three marks from the second column on. -/
theorem render_underlines_three_characters :
    let d : Diagnostic := ⟨"", ⟨1, 6⟩, none⟩
    let source : Text := ['1', 'é', '+', 'é', '2']
    d.span.Marks ['1'] ['é', '+', 'é'] ['2'] source ∧ ['é', '+', 'é'] ≠ [] ∧
      d.column source = 1 ∧ d.width source = 3 ∧
      (source.drop (d.column source)).take (d.width source) = ['é', '+', 'é'] := by
  intro d source
  have hmarks : d.span.Marks ['1'] ['é', '+', 'é'] ['2'] source := ⟨rfl, by decide⟩
  have hne : ['é', '+', 'é'] ≠ [] := List.cons_ne_nil _ _
  obtain ⟨-, -, -, hpiece⟩ := d.render_underlines_piece source
  obtain ⟨-, hcolumn, hwidth, habove⟩ := hpiece _ _ _ hmarks
  exact ⟨hmarks, hne, hcolumn, hwidth, habove hne⟩

end Diagnostic

end Abacus
