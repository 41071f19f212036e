/-!
# Blank characters

The characters that count as blank around a setting and in the body of a frame: the space separators
of Unicode, the line terminators, the tab, the vertical tab, the form feed and the byte order mark.

* `isBlank` is the class, read off the table `blankRanges`.
* `trimBlank` drops blanks on both sides, so blanks around a text make no difference
  (`trimBlank_padded`).

`U+0085` and `U+200B` are not blank; `U+00A0` and `U+FEFF` are.
-/

namespace Rcon

/-- The blank characters as ranges of code points, ends included, ascending. -/
def blankRanges : List (Nat × Nat) :=
  [(0x09, 0x0D), (0x20, 0x20), (0xA0, 0xA0), (0x1680, 0x1680), (0x2000, 0x200A), (0x2028, 0x2029),
    (0x202F, 0x202F), (0x205F, 0x205F), (0x3000, 0x3000), (0xFEFF, 0xFEFF)]

/-- A character is blank when a range of the table holds its code point. -/
def isBlank (c : Char) : Bool :=
  blankRanges.any fun r ↦ r.1 ≤ c.toNat && c.toNat ≤ r.2

/-- The characters left when the blanks on both sides are dropped. -/
def trimBlank (cs : List Char) : List Char :=
  ((cs.dropWhile isBlank).reverse.dropWhile isBlank).reverse

/-- Nothing of a text of blanks is left when its blanks are dropped. -/
theorem dropWhile_isBlank {cs : List Char} (h : ∀ c ∈ cs, isBlank c = true) :
    cs.dropWhile isBlank = [] := by
  induction cs with
  | nil => rfl
  | cons c cs ih =>
    rw [List.dropWhile_cons_of_pos (h c List.mem_cons_self)]
    exact ih fun d hd ↦ h d (List.mem_cons_of_mem c hd)

/-- A text of blanks trims to nothing. -/
theorem trimBlank_eq_nil {cs : List Char} (h : ∀ c ∈ cs, isBlank c = true) : trimBlank cs = [] := by
  simp [trimBlank, dropWhile_isBlank h]

/-- **Blanks around a text make no difference.** -/
theorem trimBlank_padded {left right : List Char} (hleft : ∀ c ∈ left, isBlank c = true)
    (hright : ∀ c ∈ right, isBlank c = true) (cs : List Char) :
    trimBlank (left ++ cs ++ right) = trimBlank cs := by
  have hl : left.dropWhile isBlank = [] := dropWhile_isBlank hleft
  have hr : right.dropWhile isBlank = [] := dropWhile_isBlank hright
  have hr' : right.reverse.dropWhile isBlank = [] :=
    dropWhile_isBlank fun c hc ↦ hright c (List.mem_reverse.1 hc)
  have hlist : (left ++ cs ++ right).dropWhile isBlank =
      if (cs.dropWhile isBlank).isEmpty then [] else cs.dropWhile isBlank ++ right := by
    rw [List.append_assoc, List.dropWhile_append, hl, List.isEmpty_nil, if_pos rfl,
      List.dropWhile_append, hr]
  unfold trimBlank
  rw [hlist]
  split
  · next h =>
    rw [List.isEmpty_iff.1 h]
  · rw [List.reverse_append, List.dropWhile_append, hr', List.isEmpty_nil, if_pos rfl]

example : isBlank '\u0085' = false ∧ isBlank '\u200B' = false := by decide

example : isBlank '\u00A0' = true ∧ isBlank '\uFEFF' = true := by decide

end Rcon
