/-!
# Justified columns

Texts padded with spaces to a least width; a wider text is left as it is.
-/

namespace Subleq.Text

/-- Spaces before a text, up to a width. -/
def padLeft (width : Nat) (text : String) : String :=
  String.ofList (List.replicate (width - text.length) ' ') ++ text

/-- Spaces after a text, up to a width. -/
def padRight (width : Nat) (text : String) : String :=
  text ++ String.ofList (List.replicate (width - text.length) ' ')

end Subleq.Text
