import Mathlib.Data.List.DropRight
import Mathlib.Data.List.Induction

/-! # Texts as lists of characters

Cutting a text into lines and a line into words, and what comes of it where the text was
put together from words and blanks.
-/

namespace Text

variable {line core word : List Char} {c : Char}

/-- `White_Space` in Unicode. -/
def isWhitespace (c : Char) : Bool :=
  let n := c.toNat
  decide (9 ≤ n ∧ n ≤ 13 ∨ n = 32 ∨ n = 133 ∨ n = 160 ∨ n = 5760 ∨ 8192 ≤ n ∧ n ≤ 8202 ∨ n = 8232 ∨
    n = 8233 ∨ n = 8239 ∨ n = 8287 ∨ n = 12288)

def trim (line : List Char) : List Char := (line.dropWhile isWhitespace).rdropWhile isWhitespace

/-- The words between white space. -/
def splitWhitespace (line : List Char) : List (List Char) :=
  (line.splitOnP isWhitespace).filter (· ≠ [])

/-- A line without the carriage return that ends it. -/
def stripCr (line : List Char) : List Char :=
  if line.getLast? = some '\r' then line.dropLast else line

/-- The lines of a text; behind the last line feed nothing is no line. -/
def lines (text : List Char) : List (List Char) :=
  let parts := text.splitOn '\n'
  parts.dropLast.map stripCr ++ parts.getLast?.toList.filter (· ≠ [])

/-- A text whose lines all end in a line feed. -/
def unlines (lines : List (List Char)) : List Char := lines.flatMap fun line => line ++ ['\n']

/-- Not empty, and without white space. -/
structure IsWord (word : List Char) : Prop where
  nonempty : word ≠ []
  solid : ∀ c ∈ word, isWhitespace c = false

theorem trim_append {front back : List Char} (blank : ∀ c ∈ front, isWhitespace c = true)
    (blank' : ∀ c ∈ back, isWhitespace c = true)
    (first : ∀ c ∈ core.head?, isWhitespace c = false)
    (last : ∀ c ∈ core.getLast?, isWhitespace c = false) (nonempty : core ≠ []) :
    trim (front ++ core ++ back) = core := by
  unfold trim
  rw [List.append_assoc, List.dropWhile_append_of_pos blank]
  have starts : (core ++ back).dropWhile isWhitespace = core ++ back := by
    cases core with
    | nil => exact absurd rfl nonempty
    | cons c rest => simp [first c rfl]
  rw [starts, List.rdropWhile, List.reverse_append, List.dropWhile_append_of_pos (by simpa using blank')]
  obtain ⟨rest, c, rfl⟩ := List.eq_nil_or_concat core |>.resolve_left nonempty
  simp [last c (by simp)]

theorem trim_blank (blank : ∀ c ∈ line, isWhitespace c = true) : trim line = [] := by
  have gone : line.dropWhile isWhitespace = [] := List.dropWhile_eq_nil_iff.mpr blank
  rw [trim, gone, List.rdropWhile_nil]

theorem head?_trim {front : List Char} (blank : ∀ c ∈ front, isWhitespace c = true)
    (ink : isWhitespace c = false) : (trim (front ++ c :: line)).head? = some c := by
  have starts : (front ++ c :: line).dropWhile isWhitespace = c :: line := by
    rw [List.dropWhile_append_of_pos blank]
    simp [ink]
  rw [trim, starts]
  have part := List.rdropWhile_prefix isWhitespace (c :: line)
  have filled : (c :: line).rdropWhile isWhitespace ≠ [] := by
    intro none_
    have all := List.rdropWhile_eq_nil_iff.mp none_ c (by simp)
    rw [ink] at all
    cases all
  obtain ⟨d, rest, shape⟩ := List.exists_cons_of_ne_nil filled
  rw [shape] at part ⊢
  obtain ⟨tail, whole⟩ := part
  exact congrArg some (List.cons.inj whole).1

theorem splitOn_unlines {all : List (List Char)} (single : ∀ line ∈ all, '\n' ∉ line) :
    (unlines all).splitOn '\n' = all ++ [[]] := by
  induction all with
  | nil => simp [unlines]
  | cons line rest ih =>
      have whole : unlines (line :: rest) = line ++ '\n' :: unlines rest := by simp [unlines]
      rw [whole, List.splitOn_append_cons_self, ih fun line' member => single line' (by simp [member]),
        List.splitOn_eq_singleton (single line (by simp))]
      rfl

theorem lines_unlines {all : List (List Char)} (single : ∀ line ∈ all, '\n' ∉ line) :
    lines (unlines all) = all.map stripCr := by
  simp [lines, splitOn_unlines single]

theorem getLast?_splitWhitespace (isWord : IsWord word) (space : isWhitespace c = true) :
    (splitWhitespace (line ++ c :: word)).getLast? = some word := by
  unfold splitWhitespace
  rw [List.splitOnP_append_cons _ _ space, List.splitOnP_eq_singleton isWord.solid,
    List.filter_append]
  simp [isWord.nonempty]

end Text
