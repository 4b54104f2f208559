/-!
# Texts

Trimming, words, lines, letter case and search on texts as lists of characters.

* Two classes of blank characters are in use. The wide one is the Unicode property `White_Space`: it
  is what trimming removes and what parts words. The narrow one holds the five ASCII blanks; it
  decides where a word starts inside a chain body. Every narrow blank is a wide one
  (`isBlank_of_isAsciiBlank`).
* A line ends at a line feed, or at the end of the text. One carriage return before the line feed
  belongs to the ending; a carriage return at the end of the text does not. No line follows a final
  line feed.
* Only the ASCII letters have two cases; every other character is its own lower-case form.
-/

namespace Keybinds.Text

/-! ## Blanks -/

/-- The Unicode property `White_Space`. -/
def isBlank (c : Char) : Bool :=
  let n := c.toNat
  (9 ≤ n && n ≤ 13) || n == 0x20 || n == 0x85 || n == 0xA0 || n == 0x1680 ||
    (0x2000 ≤ n && n ≤ 0x200A) || n == 0x2028 || n == 0x2029 || n == 0x202F || n == 0x205F ||
    n == 0x3000

/-- Space, tab, line feed, form feed and carriage return; the vertical tab is not among them. -/
def isAsciiBlank (c : Char) : Bool :=
  c == ' ' || c == '\t' || c == '\n' || c == '\x0c' || c == '\r'

theorem isBlank_of_isAsciiBlank {c : Char} (h : isAsciiBlank c = true) : isBlank c = true := by
  simp only [isAsciiBlank, Bool.or_eq_true, beq_iff_eq] at h
  rcases h with (((rfl | rfl) | rfl) | rfl) | rfl <;> rfl

/-! ## Trimming -/

/-- The characters from the first one that is not blank. -/
def stripStart (cs : List Char) : List Char :=
  cs.dropWhile isBlank

/-- The characters up to the last one that is not blank. -/
def stripEnd (cs : List Char) : List Char :=
  (cs.reverse.dropWhile isBlank).reverse

/-- The characters without the blanks at both ends. -/
def strip (cs : List Char) : List Char :=
  stripEnd (stripStart cs)

/-- The text without the blanks at both ends. -/
def trim (s : String) : String :=
  String.ofList (strip s.toList)

@[simp] theorem toList_trim (s : String) : (trim s).toList = strip s.toList := by
  simp [trim]

/-! ## Words -/

/-- The longest runs of characters that are not blank, in order. -/
def words (cs : List Char) : List (List Char) :=
  (cs.splitOnP isBlank).filter (!·.isEmpty)

/-- The first run of characters that are not blank, and what follows it without the blanks at its
ends. -/
def firstWord (cs : List Char) : List Char × List Char :=
  let cs := stripStart cs
  (cs.takeWhile (!isBlank ·), strip (cs.dropWhile (!isBlank ·)))

/-! ## Lines -/

/-- The line without the one carriage return that belongs to its ending. -/
def dropCarriageReturn (cs : List Char) : List Char :=
  if cs.getLast? = some '\r' then cs.dropLast else cs

/-- The lines of a text, without their endings. -/
def lines (cs : List Char) : List (List Char) :=
  let pieces := cs.splitOnP (· == '\n')
  pieces.dropLast.map dropCarriageReturn ++ pieces.getLast?.toList.filter (!·.isEmpty)

/-- The text with each line break character written as a space. -/
def oneLine (s : String) : String :=
  s.map fun c => if c = '\r' ∨ c = '\n' then ' ' else c

/-! ## Letter case and plus signs -/

/-- The text with its ASCII capitals in lower case. -/
def lower (s : String) : String :=
  String.ofList (s.toList.map Char.toLower)

/-- The text without its leading plus signs. -/
def dropPlus (s : String) : String :=
  String.ofList (s.toList.dropWhile (· == '+'))

@[simp] theorem toList_lower (s : String) : (lower s).toList = s.toList.map Char.toLower := by
  simp [lower]

@[simp] theorem toList_dropPlus (s : String) :
    (dropPlus s).toList = s.toList.dropWhile (· == '+') := by
  simp [dropPlus]

/-! ## Search and replacement -/

/-- Whether `part` occurs in the text as a run of adjacent characters. -/
def occursIn (part : List Char) : List Char → Bool
  | [] => part.isEmpty
  | c :: cs => part.isPrefixOf (c :: cs) || occursIn part cs

/-- Copies the text after `skip` characters, writing `new` for each occurrence of `old`. -/
def replaceFrom (old new : List Char) (skip : Nat) : List Char → List Char
  | [] => []
  | c :: cs =>
    match skip with
    | n + 1 => replaceFrom old new n cs
    | 0 =>
      if old.isPrefixOf (c :: cs) then new ++ replaceFrom old new (old.length - 1) cs
      else c :: replaceFrom old new 0 cs

/-- The text with every occurrence of the non-empty `old` written as `new`. -/
def replaceAll (old new : List Char) (cs : List Char) : List Char :=
  replaceFrom old new 0 cs

end Keybinds.Text
