/-!
# Width of text in bytes

Positions in a source are byte offsets into its UTF-8 form, while the source
itself is read as a list of characters.  `utf8Width` relates the two.
-/

namespace ArrayLiteral.Text

/-- The number of bytes that the characters take in UTF-8. -/
def utf8Width (text : List Char) : Nat :=
  text.foldr (fun c width => c.utf8Size + width) 0

@[simp] theorem utf8Width_nil : utf8Width [] = 0 := rfl

@[simp] theorem utf8Width_cons (c : Char) (text : List Char) :
    utf8Width (c :: text) = c.utf8Size + utf8Width text := rfl

@[simp] theorem utf8Width_append (front back : List Char) :
    utf8Width (front ++ back) = utf8Width front + utf8Width back := by
  induction front with
  | nil => simp
  | cons c front ih => rw [List.cons_append, utf8Width_cons, utf8Width_cons, ih, Nat.add_assoc]

theorem length_le_utf8Width (text : List Char) : text.length ≤ utf8Width text := by
  induction text with
  | nil => simp
  | cons c text ih =>
    have := c.utf8Size_pos
    simp only [List.length_cons, utf8Width_cons]
    omega

theorem eq_nil_of_utf8Width_eq_zero {text : List Char} (h : utf8Width text = 0) : text = [] := by
  have hlength := length_le_utf8Width text
  exact List.eq_nil_of_length_eq_zero (by omega)

/-- At each byte offset a text is cut in one place only. -/
theorem eq_of_utf8Width_eq {front front' back back' : List Char}
    (h : front ++ back = front' ++ back') (hwidth : utf8Width front = utf8Width front') :
    front = front' := by
  rcases List.append_eq_append_iff.1 h with ⟨more, rfl, -⟩ | ⟨more, rfl, -⟩
  · rw [utf8Width_append] at hwidth
    rw [eq_nil_of_utf8Width_eq_zero (by omega : utf8Width more = 0), List.append_nil]
  · rw [utf8Width_append] at hwidth
    rw [eq_nil_of_utf8Width_eq_zero (by omega : utf8Width more = 0), List.append_nil]

/-- The width of a text is its size in memory. -/
theorem utf8Width_toList (text : String) : utf8Width text.toList = text.utf8ByteSize := by
  have hwidth : ∀ chars : List Char, utf8Width chars = (String.ofList chars).utf8ByteSize := by
    intro chars
    induction chars with
    | nil => rfl
    | cons c chars ih =>
      rw [utf8Width_cons, ih, String.ofList_cons, String.utf8ByteSize_append,
        String.utf8ByteSize_singleton]
  rw [hwidth, String.ofList_toList]

end ArrayLiteral.Text
