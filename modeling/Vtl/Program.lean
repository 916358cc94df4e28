import Vtl.Tree.Read

namespace Vtl

/-- A program is a list of statements with semicolons between them. -/
abbrev Program := List Statement

namespace Program

/-- The tokens between two semicolons, the token that closes them, and the tokens behind them, that
semicolon included. -/
structure Segment where
  items : List Token
  close : Token
  after : List Token

/-- Cuts a list of tokens at its semicolons. -/
def segments (last : Token) : List Token → List Segment
  | [] => [⟨[], last, []⟩]
  | token :: rest =>
    if token.kind = .semicolon then ⟨[], token, token :: rest⟩ :: segments last rest
    else
      match segments last rest with
      | [] => []
      | segment :: others => { segment with items := token :: segment.items } :: others

/-- Reads the statement at the head of a segment. A name with `:=` behind it is a target. -/
def readStatement (source : List Char) (close : Token) (tokens : List Token) :
    Except SyntaxError Statement × List Token :=
  let start := (tokens.head?.getD close).span
  let build (target : Option String) :
      Except SyntaxError Tree × List Token → Except SyntaxError Statement × List Token
    | (result, rest) => (result.map fun tree => ⟨target, tree, start.through tree.span⟩, rest)
  match tokens with
  | name :: assign :: rest =>
    if name.kind = .identifier ∧ assign.kind = .assign then
      build (some name.text) (Tree.read source close rest)
    else build none (Tree.read source close tokens)
  | _ => build none (Tree.read source close tokens)

/-- Reads one statement from each segment that has tokens, each to the end of its segment. -/
def readSegments (source : List Char) : List Segment → Except SyntaxError Program × List Token
  | [] => (.ok [], [])
  | segment :: others =>
    if segment.items.isEmpty then readSegments source others
    else
      match readStatement source segment.close segment.items with
      | (.error e, rest) => (.error e, rest ++ segment.after)
      | (.ok _, token :: rest) =>
        (.error ⟨.wrongToken .semicolon token.kind, token.span⟩, token :: rest ++ segment.after)
      | (.ok statement, []) =>
        let (program, rest) := readSegments source others
        (program.map (statement :: ·), rest)

/-- Reads statements up to the end of the input. -/
def readAll (source : List Char) (tokens : Tokens) : Except SyntaxError Program × Tokens :=
  let (program, rest) := readSegments source (segments tokens.last tokens.items)
  (program, { tokens with items := rest })

def parse (source : String) : Except SyntaxError Program := do
  let tokens ← Tokens.ofString source
  (readAll source.toList tokens).1

end Program

end Vtl
