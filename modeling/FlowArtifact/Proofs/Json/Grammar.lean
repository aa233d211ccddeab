import FlowArtifact.Proofs.Json.Glyph

/-!
# JSON texts

A JSON text is a sequence of tokens, with blanks between them as one likes.
`Writes` relates the characters of a text to its tokens, and `Tree.tokens` gives
the tokens of what the text says.  Neither knows of the scanner or the reader:
`Denotes` is what it means for a text to say something.
-/

namespace FlowArtifact.Json

open Lexeme (Delimited)

/-- A part of a text.  A number out of range and a text with half a surrogate pair have no value. -/
inductive Token where
  | openList
  | closeList
  | openRecord
  | closeRecord
  | comma
  | colon
  | text (value : Option String)
  | scalar (value : Option Scalar)
  | finish

inductive Writes : List Char → List Token → Prop
  | finish : Writes [] [.finish]
  | blank {c : Char} {text : List Char} {ts : List Token} (hc : Lexeme.isBlank c = true)
      (hrest : Writes text ts) : Writes (c :: text) ts
  | openList {text : List Char} {ts : List Token} (hrest : Writes text ts) :
      Writes ('[' :: text) (.openList :: ts)
  | closeList {text : List Char} {ts : List Token} (hrest : Writes text ts) :
      Writes (']' :: text) (.closeList :: ts)
  | openRecord {text : List Char} {ts : List Token} (hrest : Writes text ts) :
      Writes ('{' :: text) (.openRecord :: ts)
  | closeRecord {text : List Char} {ts : List Token} (hrest : Writes text ts) :
      Writes ('}' :: text) (.closeRecord :: ts)
  | comma {text : List Char} {ts : List Token} (hrest : Writes text ts) :
      Writes (',' :: text) (.comma :: ts)
  | colon {text : List Char} {ts : List Token} (hrest : Writes text ts) :
      Writes (':' :: text) (.colon :: ts)
  | null {text : List Char} {ts : List Token} (hrest : Writes text ts) :
      Writes (['n', 'u', 'l', 'l'] ++ text) (.scalar (some .null) :: ts)
  | true {text : List Char} {ts : List Token} (hrest : Writes text ts) :
      Writes (['t', 'r', 'u', 'e'] ++ text) (.scalar (some (.bool true)) :: ts)
  | false {text : List Char} {ts : List Token} (hrest : Writes text ts) :
      Writes (['f', 'a', 'l', 's', 'e'] ++ text) (.scalar (some (.bool false)) :: ts)
  | number {n : Numeral} {exponent text : List Char} {ts : List Token} (hn : n.WellFormed)
      (hexponent : n.SpellsExponent exponent) (hend : Delimited text) (hrest : Writes text ts) :
      Writes (n.charsWith exponent ++ text) (.scalar n.value.toOption :: ts)
  | text {body text : List Char} {gs : List Glyph} {ts : List Token} (hbody : SpellsText body gs)
      (hrest : Writes text ts) : Writes ('"' :: (body ++ '"' :: text)) (.text (textOf? gs) :: ts)

inductive Tree where
  | scalar (value : Option Scalar)
  | text (value : Option String)
  | list (items : List Tree)
  | record (fields : List (Option String × Tree))

namespace Tree

mutual
def tokens (ts : List Token) : Tree → List Token
  | .scalar value => .scalar value :: ts
  | .text value => .text value :: ts
  | .list items => .openList :: itemTokens true ts items
  | .record fields => .openRecord :: fieldTokens true ts fields

def itemTokens (isFirst : Bool) (ts : List Token) : List Tree → List Token
  | [] => .closeList :: ts
  | t :: rest => (if isFirst then [] else [.comma]) ++ tokens (itemTokens false ts rest) t

def fieldTokens (isFirst : Bool) (ts : List Token) : List (Option String × Tree) → List Token
  | [] => .closeRecord :: ts
  | (name, t) :: rest =>
    (if isFirst then [] else [.comma]) ++
      .text name :: .colon :: tokens (fieldTokens false ts rest) t
end

end Tree

/-- The text is JSON and says this. -/
def Denotes (text : String) (t : Tree) : Prop := Writes text.toList (t.tokens [.finish])

end FlowArtifact.Json
