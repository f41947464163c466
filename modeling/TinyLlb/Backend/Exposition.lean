import TinyLlb.Flow
import TinyLlb.Library.Text

/-! # The text exposition format

A body is a list of lines: empty ones, comments, and samples of a name, labels, a value
and a timestamp, with blanks and tabs in between. A value of a type below carries what
makes its text well formed, so that every body is the text of some list of lines.
-/

namespace TinyLlb

namespace Exposition

def isBlank (c : Char) : Bool := c = ' ' || c = '\t'

/-- Blanks and tabs, or none. -/
def Blanks := { b : List Char // ∀ c ∈ b, isBlank c = true }

/-- At least one blank or tab. -/
def Gap := { b : List Char // b ≠ [] ∧ ∀ c ∈ b, isBlank c = true }

def isNameChar (c : Char) : Bool := c.isAlphanum || c = '_' || c = ':'

def Name := { name : List Char // name ≠ [] ∧ ∀ c ∈ name, isNameChar c = true }

/-- Digits, signs, a point, and the letters of exponents, `NaN` and `Inf`. -/
def isNumberChar (c : Char) : Bool := c.isAlphanum || c = '+' || c = '-' || c = '.'

/-- A number as it is written, and the number. -/
structure NumberToken where
  text : List Char
  number : F64
  nonempty : text ≠ []
  chars : ∀ c ∈ text, isNumberChar c = true

structure Label where
  before : Blanks
  name : Name
  beforeSign : Blanks
  afterSign : Blanks
  /-- Any characters at all. -/
  value : List Char
  after : Blanks

/-- Labels in braces; the last one may be followed by a comma. -/
structure LabelSet where
  before : Blanks
  labels : List Label
  comma : Bool
  after : Blanks

structure Sample where
  lead : Blanks
  name : Name
  labels : Option LabelSet
  gap : Gap
  value : NumberToken
  timestamp : Option (Gap × NumberToken)
  trail : Blanks

inductive Line where
  | empty (blanks : Blanks)
  | comment (lead : Blanks) (text : { text : List Char // '\n' ∉ text })
  | sample (sample : Sample)

/-- Backslashes, quotes and line feeds are escaped in label values. -/
def escape : List Char → List Char
  | [] => []
  | c :: rest =>
      (if c = '\\' then ['\\', '\\'] else if c = '"' then ['\\', '"']
        else if c = '\n' then ['\\', 'n'] else [c]) ++ escape rest

def Label.text (label : Label) : List Char :=
  label.before.1 ++ label.name.1 ++ label.beforeSign.1 ++ '=' :: label.afterSign.1 ++
    '"' :: escape label.value ++ '"' :: label.after.1

def listText (comma : Bool) : List Label → List Char
  | [] => []
  | [label] => label.text ++ if comma then [','] else []
  | label :: rest => label.text ++ ',' :: listText comma rest

def LabelSet.text (set : LabelSet) : List Char :=
  set.before.1 ++ '\x7b' :: listText set.comma set.labels ++ set.after.1 ++ ['\x7d']

namespace Sample

def timestampText (sample : Sample) : List Char :=
  match sample.timestamp with
  | none => []
  | some (gap, token) => gap.1 ++ token.text

def labelsText (sample : Sample) : List Char :=
  match sample.labels with
  | none => []
  | some set => set.text

/-- The sample without the blanks around it. -/
def core (sample : Sample) : List Char :=
  sample.name.1 ++ sample.labelsText ++ sample.gap.1 ++ sample.value.text ++ sample.timestampText

end Sample

def Line.text : Line → List Char
  | .empty blanks => blanks.1
  | .comment lead text => lead.1 ++ '#' :: text.1
  | .sample s => s.lead.1 ++ s.core ++ s.trail.1

/-- Every line ends in a line feed. -/
def text (lines : List Line) : List Char := Text.unlines (lines.map Line.text)

def samples (lines : List Line) : List Sample :=
  lines.filterMap fun line =>
    match line with
    | .sample s => some s
    | _ => none

variable {c : Char}

theorem toNat_of_isAlphanum (plain : c.isAlphanum = true) :
    48 ≤ c.toNat ∧ c.toNat ≤ 57 ∨ 65 ≤ c.toNat ∧ c.toNat ≤ 90 ∨ 97 ≤ c.toNat ∧ c.toNat ≤ 122 := by
  rcases Bool.or_eq_true_iff.mp plain with alpha | digit
  · rcases Bool.or_eq_true_iff.mp alpha with upper | lower
    · obtain ⟨low, high⟩ := of_decide_eq_true upper
      exact .inr (.inl ⟨UInt32.le_iff_toNat_le.mp low, UInt32.le_iff_toNat_le.mp high⟩)
    · obtain ⟨low, high⟩ := Bool.and_eq_true_iff.mp lower
      exact .inr (.inr ⟨UInt32.le_iff_toNat_le.mp (of_decide_eq_true low),
        UInt32.le_iff_toNat_le.mp (of_decide_eq_true high)⟩)
  · obtain ⟨low, high⟩ := Bool.and_eq_true_iff.mp digit
    exact .inl ⟨UInt32.le_iff_toNat_le.mp (of_decide_eq_true low),
      UInt32.le_iff_toNat_le.mp (of_decide_eq_true high)⟩

theorem ink_of_toNat (range : 43 ≤ c.toNat ∧ c.toNat ≤ 122) :
    Text.isWhitespace c = false ∧ c ≠ '\x7b' ∧ c ≠ '#' := by
  refine ⟨?_, ?_, ?_⟩
  · simp only [Text.isWhitespace, decide_eq_false_iff_not]
    omega
  · rintro rfl
    simp at range
  · rintro rfl
    simp at range

theorem ink_of_isNameChar (named : isNameChar c = true) :
    Text.isWhitespace c = false ∧ c ≠ '\x7b' ∧ c ≠ '#' := by
  apply ink_of_toNat
  simp only [isNameChar, Bool.or_eq_true, decide_eq_true_eq] at named
  rcases named with (plain | rfl) | rfl
  · have range := toNat_of_isAlphanum plain
    omega
  · decide
  · decide

theorem ink_of_isNumberChar (digit : isNumberChar c = true) :
    Text.isWhitespace c = false ∧ c ≠ '\x7b' ∧ c ≠ '#' := by
  apply ink_of_toNat
  simp only [isNumberChar, Bool.or_eq_true, decide_eq_true_eq] at digit
  rcases digit with ((plain | rfl) | rfl) | rfl
  · have range := toNat_of_isAlphanum plain
    omega
  · decide
  · decide
  · decide

theorem isWhitespace_of_isBlank (blank : isBlank c = true) : Text.isWhitespace c = true := by
  simp only [isBlank, Bool.or_eq_true, decide_eq_true_eq] at blank
  rcases blank with rfl | rfl <;> decide

theorem ne_of_isBlank (blank : isBlank c = true) : c ≠ '\n' ∧ c ≠ '\x7b' ∧ c ≠ '\r' := by
  simp only [isBlank, Bool.or_eq_true, decide_eq_true_eq] at blank
  rcases blank with rfl | rfl <;> decide

theorem ne_newline_of_ink (ink : Text.isWhitespace c = false) : c ≠ '\n' ∧ c ≠ '\r' ∧ c ≠ ' ' := by
  refine ⟨?_, ?_, ?_⟩ <;> rintro rfl <;> exact absurd ink (by decide)

theorem NumberToken.isWord (token : NumberToken) : Text.IsWord token.text :=
  ⟨token.nonempty, fun c member => (ink_of_isNumberChar (token.chars c member)).1⟩

theorem Gap.eq_concat (gap : Gap) : ∃ front c, gap.1 = front ++ [c] ∧ isBlank c = true := by
  obtain ⟨front, c, split⟩ := List.eq_nil_or_concat gap.1 |>.resolve_left gap.2.1
  exact ⟨front, c, by simpa using split, gap.2.2 c (by simp [split])⟩

theorem newline_notMem_escape (value : List Char) : '\n' ∉ escape value := by
  induction value with
  | nil => simp [escape]
  | cons c rest ih =>
      unfold escape
      rw [List.mem_append, not_or]
      refine ⟨?_, ih⟩
      split_ifs with slash quote feed
      · simp
      · simp
      · simp
      · simpa using Ne.symm feed

theorem newline_notMem_blanks {b : List Char} (blank : ∀ c ∈ b, isBlank c = true) : '\n' ∉ b :=
  fun member => (ne_of_isBlank (blank _ member)).1 rfl

theorem newline_notMem_name (name : Name) : '\n' ∉ name.1 := fun member =>
  (ne_newline_of_ink (ink_of_isNameChar (name.2.2 _ member)).1).1 rfl

theorem newline_notMem_token (token : NumberToken) : '\n' ∉ token.text := fun member =>
  (ne_newline_of_ink (token.isWord.solid _ member)).1 rfl

theorem newline_notMem_label (label : Label) : '\n' ∉ label.text := by
  have blanks : ∀ b : Blanks, '\n' ∉ b.1 := fun b => newline_notMem_blanks b.2
  simp [Label.text, blanks, newline_notMem_name, newline_notMem_escape]

theorem newline_notMem_list (comma : Bool) (labels : List Label) : '\n' ∉ listText comma labels := by
  fun_induction listText comma labels with
  | case1 => simp
  | case2 label => cases comma <;> simp [newline_notMem_label]
  | case3 label rest _ ih => simp [newline_notMem_label, ih]

theorem newline_notMem_set (set : LabelSet) : '\n' ∉ set.text := by
  have before := newline_notMem_blanks set.before.2
  have after := newline_notMem_blanks set.after.2
  simp [LabelSet.text, before, after, newline_notMem_list]

namespace Sample

/-- The last word of the line: the timestamp where there is one. -/
def lastToken (sample : Sample) : NumberToken :=
  match sample.timestamp with
  | none => sample.value
  | some (_, token) => token

variable (sample : Sample)

/-- The line is heeded: a brace or, without labels, a space stands right behind the name. -/
def heeded : Bool :=
  match sample.labels with
  | some set => set.before.1.isEmpty
  | none => sample.gap.1.head? = some ' '

theorem newline_notMem_labels : '\n' ∉ sample.labelsText := by
  unfold labelsText
  cases sample.labels with
  | none => simp
  | some set => exact newline_notMem_set set

theorem newline_notMem_core : '\n' ∉ sample.core := by
  have gap := newline_notMem_blanks sample.gap.2.2
  unfold core timestampText
  cases sample.timestamp with
  | none =>
      simp [gap, newline_notMem_name, newline_notMem_labels, newline_notMem_token]
  | some stamp =>
      have gap' := newline_notMem_blanks stamp.1.2.2
      simp [gap, gap', newline_notMem_name, newline_notMem_labels, newline_notMem_token]

theorem core_eq : ∃ front c, sample.core = sample.name.1 ++ front ++ c :: sample.lastToken.text ∧
    isBlank c = true := by
  unfold core lastToken timestampText
  cases sample.timestamp with
  | none =>
      obtain ⟨front, c, split, blank⟩ := sample.gap.eq_concat
      exact ⟨sample.labelsText ++ front, c, by simp [split], blank⟩
  | some stamp =>
      obtain ⟨front, c, split, blank⟩ := stamp.1.eq_concat
      exact ⟨sample.labelsText ++ sample.gap.1 ++ sample.value.text ++ front, c,
        by simp [split], blank⟩

end Sample

theorem newline_notMem_line (line : Line) : '\n' ∉ line.text := by
  cases line with
  | empty blanks => exact newline_notMem_blanks blanks.2
  | comment lead text =>
      have before := newline_notMem_blanks lead.2
      simp [Line.text, before, text.2]
  | sample s =>
      have before := newline_notMem_blanks s.lead.2
      have after := newline_notMem_blanks s.trail.2
      simp [Line.text, before, after, s.newline_notMem_core]

end Exposition

end TinyLlb
