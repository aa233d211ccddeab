import FlowArtifact.Yaml.Cursor

/-!
# Gaps between the pieces of a scalar

Scalars may go on over several lines. Blanks inside a line stay as they are; around a line break
they are dropped, a single line break becomes a blank and of several line breaks all but the first
stay.
-/

namespace FlowArtifact.Yaml

/-- The blanks and line breaks between two pieces of a scalar. -/
structure Gap where
  /-- The blanks before the first line break. -/
  blanks : List Char := []
  /-- A line ended in the gap. -/
  crosses : Bool := false
  /-- The first line break, if it counts. -/
  first : Option Char := none
  /-- The other line breaks. -/
  others : List Char := []

namespace Gap

/-- The gap in which a line ended whose break does not count. -/
def escaped : Gap := { crosses := true }

def fold (first : Char) (others : List Char) : List Char :=
  if first = '\n' then if others = [] then [' '] else others else first :: others

def text (g : Gap) : List Char :=
  if g.crosses then
    match g.first with
    | some c => fold c g.others
    | none => g.others
  else g.blanks

def addBlank (g : Gap) (c : Char) : Gap :=
  if g.crosses then g else { g with blanks := g.blanks ++ [c] }

def addBreak (g : Gap) (c : Char) : Gap :=
  if g.crosses then { g with others := g.others ++ [c] }
  else { crosses := true, first := some c }

/-- Takes a gap that goes on from `g`. Behind a line break a tab before the column `limit` is
reported by its mark. -/
def take (limit : Nat) (g : Gap) (m : Mark) : List Char → Except Mark (Gap × Cursor)
  | '\r' :: '\n' :: rest => take limit (g.addBreak '\n') (m.nextLine 2) rest
  | c :: rest =>
    if isBlank c then
      if c = '\t' ∧ g.crosses ∧ m.column < limit then .error m
      else take limit (g.addBlank c) (m.along [c]) rest
    else if isBreak c then
      take limit (g.addBreak (breakValue c)) (m.nextLine c.utf8Size) rest
    else .ok (g, ⟨c :: rest, m⟩)
  | [] => .ok (g, ⟨[], m⟩)

end Gap

end FlowArtifact.Yaml
