import Mathlib.Data.List.Basic

/-!
# Regular expressions

Regular expressions over characters, with the two anchors, and what it means for one to match a
text.  `ends` gives the positions at which a match that starts at a position can end, so it can be
run; a repetition is tried as often as there are characters left, since a round that consumes
nothing leads nowhere new.
-/

namespace Text

/-- A regular expression. -/
inductive Pattern where
  /-- The empty text. -/
  | empty
  /-- A character of a class. -/
  | one (accepts : Char → Bool)
  /-- The start of the text. -/
  | start
  /-- The end of the text, or the line break that ends it. -/
  | stop
  | seq (p q : Pattern)
  | alt (p q : Pattern)
  /-- So many times at least, and at most. -/
  | rep (p : Pattern) (least : Nat) (most : Option Nat)

namespace Pattern

/-- Where a number of rounds can end. -/
def rounds (round : Nat → List Nat) : Nat → Nat → List Nat
  | 0, i => [i]
  | n + 1, i => (round i).flatMap (rounds round n)

variable (text : List Char)

/-- Where a match that starts at a position can end. -/
def ends : Pattern → Nat → List Nat
  | .empty, i => [i]
  | .one accepts, i =>
      match text[i]? with
      | some c => if accepts c then [i + 1] else []
      | none => []
  | .start, i => if i = 0 then [i] else []
  | .stop, i => if text.drop i = [] ∨ text.drop i = ['\n'] then [i] else []
  | .seq p q, i => (ends p i).flatMap (ends q)
  | .alt p q, i => ends p i ++ ends q i
  | .rep p least most, i =>
      (List.range (most.getD (max least text.length) + 1 - least)).flatMap fun k =>
        rounds (ends p) (least + k) i

/-- The pattern matches from the start of the text. -/
def matchesStart (p : Pattern) (text : String) : Bool := !(ends text.toList p 0).isEmpty

/-- The pattern matches somewhere in the text. -/
def search (p : Pattern) (text : String) : Bool :=
  (List.range (text.toList.length + 1)).any fun i => !(ends text.toList p i).isEmpty

/-- One pattern after another. -/
def all (ps : List Pattern) : Pattern := ps.foldr .seq .empty

/-- One of several patterns. -/
def oneOf (ps : List Pattern) : Pattern := ps.foldr .alt (.one fun _ => false)

/-- A text that is spelled out. -/
def word (s : String) : Pattern := all (s.toList.map fun c => .one fun d => decide (d = c))

end Pattern

end Text
