/-!
Templates with placeholders.

The marks `%s` and `%d` stand for the next argument, and for nothing once the
arguments are used up. A doubled percent sign stands for one, and any other percent
sign for itself. Arguments are inserted as they are and never read again.
-/

namespace OutlineWiki.Text

/-- Fills the placeholders of a template in order. -/
def fill : List Char → List (List Char) → List Char
  | [], _ => []
  | ['%'], _ => ['%']
  | '%' :: mark :: rest, arguments =>
    if mark = 's' ∨ mark = 'd' then
      arguments.headD [] ++ fill rest arguments.tail
    else if mark = '%' then
      '%' :: fill rest arguments
    else
      '%' :: fill (mark :: rest) arguments
  | c :: rest, arguments => c :: fill rest arguments

theorem fill_cons {c : Char} (h : c ≠ '%') (rest : List Char)
    (arguments : List (List Char)) :
    fill (c :: rest) arguments = c :: fill rest arguments := by
  rw [fill.eq_def]
  split <;> simp_all

end OutlineWiki.Text
