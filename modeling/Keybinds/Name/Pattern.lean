import Keybinds.Name.CharClass

/-!
# Name patterns

Regular expressions for names, and whether one occurs in a name. A pattern is searched for: it may
match anywhere in a name unless it is anchored. The search follows all ways to match at once, each
of them a pattern that still has to match in front of the rest of the name (`residuals`).
-/

namespace Keybinds

inductive Pattern where
  | empty
  /-- The start of the name. -/
  | start
  /-- The end of the name. -/
  | stop
  | one (k : CharClass)
  | seq (p q : Pattern)
  | either (p q : Pattern)
  /-- One or more times in a row. -/
  | many (p : Pattern)
  deriving DecidableEq, Repr

namespace Pattern

/-! ## Building -/

/-- Both patterns in a row. -/
def append : Pattern → Pattern → Pattern
  | empty, q => q
  | p, q => seq p q

/-- No or one time. -/
def optional (p : Pattern) : Pattern := either empty p

/-- Any number of times in a row. -/
def star (p : Pattern) : Pattern := optional (many p)

/-- `n` times in a row. -/
def times (p : Pattern) : Nat → Pattern
  | 0 => empty
  | n + 1 => seq p (times p n)

/-- At most `n` times in a row. -/
def atMost (p : Pattern) : Nat → Pattern
  | 0 => empty
  | n + 1 => optional (seq p (atMost p n))

/-! ## Matching -/

/-- Whether the pattern matches no character at a place, which is the start of the name if `first`
and its end if `last`. -/
def matchesEmpty (first last : Bool) : Pattern → Bool
  | empty => true
  | start => first
  | stop => last
  | one _ => false
  | seq p q => p.matchesEmpty first last && q.matchesEmpty first last
  | either p q => p.matchesEmpty first last || q.matchesEmpty first last
  | many p => p.matchesEmpty first last

/-- What has still to match behind the character `c`, which is the first of the name if `first`. -/
def residuals (first : Bool) (c : Char) : Pattern → List Pattern
  | empty => []
  | start => []
  | stop => []
  | one k => if k.contains c then [empty] else []
  | seq p q =>
    (p.residuals first c).map (·.append q) ++
      (if p.matchesEmpty first false then q.residuals first c else [])
  | either p q => p.residuals first c ++ q.residuals first c
  | many p => (p.residuals first c).map (·.append p.star)

/-- Whether the pattern or what is left of it matches: `begun` are the residuals of matches that
began in front of `cs`. -/
def search (p : Pattern) (first : Bool) (begun : List Pattern) : List Char → Bool
  | [] => (p :: begun).any (matchesEmpty first true)
  | c :: cs =>
    (p :: begun).any (matchesEmpty first false) ||
      p.search false ((p :: begun).flatMap (residuals first c)).eraseDups cs

/-- Whether the pattern matches somewhere in the text. -/
def occursIn (p : Pattern) (s : String) : Bool :=
  p.search true [] s.toList

end Pattern

end Keybinds
