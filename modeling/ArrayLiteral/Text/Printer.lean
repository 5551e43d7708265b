/-!
# Printers

A printer is a text that is still to be written behind another one.  Texts of
nested structure are put together from printers, so that each character is
written once, however deep it is.  `Printer.text` is what a printer writes, and
the lemmas give the text of a composed printer in terms of its parts.
-/

namespace ArrayLiteral.Text

structure Printer where
  /-- The text so far with that of the printer behind it. -/
  print : String → String
  print_eq : ∀ before, print before = before ++ print ""

namespace Printer

/-- What the printer writes. -/
def text (printer : Printer) : String :=
  printer.print ""

theorem print_eq_append (printer : Printer) (before : String) :
    printer.print before = before ++ printer.text :=
  printer.print_eq before

def ofString (text : String) : Printer where
  print before := before ++ text
  print_eq before := by rw [String.empty_append]

/-- One printer behind the other. -/
def append (first second : Printer) : Printer where
  print before := second.print (first.print before)
  print_eq before := by
    simp only [print_eq_append, String.append_assoc, String.empty_append]

instance : Append Printer where
  append := append

/-- Writes printers one behind the other, each behind the separator. -/
def followed (separator : String) (printers : List Printer) : Printer where
  print before := printers.foldl (fun text printer => printer.print (text ++ separator)) before
  print_eq before := by
    induction printers generalizing before with
    | nil => simp
    | cons printer printers ih =>
      simp only [List.foldl_cons]
      rw [ih, ih (printer.print ("" ++ separator))]
      simp only [print_eq_append, String.append_assoc, String.empty_append]

/-- Writes printers one behind the other, with the separator between them. -/
def joined (separator : String) : List Printer → Printer
  | [] => ofString ""
  | printer :: printers => printer ++ followed separator printers

@[simp] theorem text_ofString (text : String) : (ofString text).text = text :=
  String.empty_append

@[simp] theorem text_append (first second : Printer) :
    (first ++ second).text = first.text ++ second.text :=
  second.print_eq_append first.text

@[simp] theorem text_followed_nil (separator : String) : (followed separator []).text = "" := rfl

@[simp] theorem text_followed_cons (separator : String) (printer : Printer)
    (printers : List Printer) :
    (followed separator (printer :: printers)).text =
      separator ++ printer.text ++ (followed separator printers).text := by
  show (followed separator printers).print (printer.print ("" ++ separator)) = _
  simp only [print_eq_append, String.append_assoc, String.empty_append]

@[simp] theorem text_joined (separator : String) (printers : List Printer) :
    (joined separator printers).text = separator.intercalate (printers.map text) := by
  cases printers with
  | nil => rfl
  | cons printer printers =>
    rw [joined, text_append]
    induction printers generalizing printer with
    | nil => simp
    | cons next printers ih =>
      rw [text_followed_cons, String.append_assoc, ih]
      simp [String.append_assoc]

end Printer

end ArrayLiteral.Text
