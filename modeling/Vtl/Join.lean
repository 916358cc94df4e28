import Vtl.Log
import Vtl.Value.Text

namespace Vtl

/-- What the rows of two datasets are matched by: the identifier cells themselves, or their texts
written one behind the other. -/
inductive KeyPolicy where
  | typed
  | concatenated
deriving DecidableEq

inductive JoinKey where
  | typed (cells : List Value)
  | concatenated (text : String)

/-- Cells agree as parts of a key if they are equal, numbers being compared by their bits. -/
def Value.sameKey : Value → Value → Bool
  | .number a, .number b => a.bits == b.bits
  | a, b => a.equals b

namespace JoinKey

def sameCells : List Value → List Value → Bool
  | [], [] => true
  | a :: left, b :: right => a.sameKey b && sameCells left right
  | _, _ => false

def same : JoinKey → JoinKey → Bool
  | .typed a, .typed b => sameCells a b
  | .concatenated a, .concatenated b => a == b
  | _, _ => false

end JoinKey

/-- How two datasets are joined: the identifiers that match rows, and the measures to be combined with
the types that the results have. -/
structure JoinSpec where
  identifiers : List Column
  measures : List Column
  policy : KeyPolicy
  keyed : identifiers ≠ []
deriving DecidableEq

/-- There is no join without an identifier to match rows by. -/
inductive JoinError where
  | noIdentifiers
deriving DecidableEq

def JoinError.message : JoinError → String
  | .noIdentifiers => "join key column list was empty"

namespace JoinSpec

def make (identifiers measures : List Column) (policy : KeyPolicy) : Except JoinError JoinSpec :=
  if keyed : identifiers ≠ [] then .ok ⟨identifiers, measures, policy, keyed⟩
  else .error .noIdentifiers

def outputColumns (spec : JoinSpec) : List Column := spec.identifiers ++ spec.measures

def keyOf (spec : JoinSpec) (row : Row) : JoinKey :=
  let cells := spec.identifiers.map fun column => row.cell column.name
  match spec.policy with
  | .typed => .typed cells
  | .concatenated => .concatenated (String.join (cells.map Value.text))

/-- The row that two matching rows make: the identifiers of the left one, and each measure combined.
Columns of one name share a cell, which the last of them fills. -/
def merge {ε : Type} (spec : JoinSpec) (combine : Value → Value → Except ε Value)
    (left right : Row) : Except ε Row :=
  let identity : Row :=
    spec.identifiers.foldl (fun row column => row.put column.name (left.cell column.name)) []
  spec.measures.foldlM
    (fun row column => do
      let value ← combine (left.cell column.name) (right.cell column.name)
      pure (row.put column.name value))
    identity

end JoinSpec

/-- The words that a text adds to a hash: its bytes, and a mark that no byte of a text is. -/
def textWords (text : String) : List UInt64 := text.toUTF8.toList.map UInt8.toUInt64 ++ [0xff]

/-- The words that a cell adds to a hash: its kind, and what it holds. Datasets are not told apart. -/
def Value.hashWords : Value → List UInt64
  | .null => [0]
  | .integer i => [1, i.toUInt64]
  | .number n => [2, n.bits]
  | .string s => 3 :: textWords s
  | .boolean b => [4, if b then 1 else 0]
  | .date d => [5, (Int64.ofInt d.dayNumber).toUInt64]
  | .duration p => 6 :: textWords p
  | .dataset _ => [7]

def JoinKey.hashWords : JoinKey → List UInt64
  | .typed cells => cells.flatMap Value.hashWords
  | .concatenated text => textWords text

/-- How the words of a key become its hash. -/
abbrev Hasher := List UInt64 → UInt64

/-- Multiplies and mixes in one word after the other. Which hasher is taken shows in no result. -/
def Hasher.mixing : Hasher := fun words =>
  words.foldl (fun hash word => (hash ^^^ word) * 0x100000001b3) 0xcbf29ce484222325

/-- Rows gathered by key, keys and rows in the order in which they came. -/
abbrev Bucket := List (JoinKey × List Row)

namespace Bucket

def add (bucket : Bucket) (key : JoinKey) (row : Row) : Bucket :=
  match bucket with
  | [] => [(key, [row])]
  | (other, rows) :: rest =>
    if key.same other then (other, rows ++ [row]) :: rest else (other, rows) :: add rest key row

def rows (bucket : Bucket) (key : JoinKey) : List Row :=
  match bucket with
  | [] => []
  | (other, found) :: rest => if key.same other then found else rows rest key

end Bucket

/-- A hash table of rows. The hash of a key picks the bucket in which it is kept. -/
structure JoinIndex where
  hasher : Hasher
  buckets : Array Bucket

namespace JoinIndex

/-- A table without rows, with room for `capacity` keys. -/
def empty (hasher : Hasher) (capacity : Nat) : JoinIndex :=
  ⟨hasher, Array.replicate (capacity + 1) []⟩

def slot (index : JoinIndex) (key : JoinKey) : Nat :=
  (index.hasher key.hashWords).toNat % index.buckets.size

def add (index : JoinIndex) (key : JoinKey) (row : Row) : JoinIndex :=
  { index with buckets := index.buckets.modify (index.slot key) fun bucket => bucket.add key row }

def rows (index : JoinIndex) (key : JoinKey) : List Row :=
  Bucket.rows (index.buckets.getD (index.slot key) []) key

def build (hasher : Hasher) (spec : JoinSpec) (rows : List Row) : JoinIndex :=
  rows.foldl (fun index row => index.add (spec.keyOf row) row) (empty hasher rows.length)

end JoinIndex

namespace Dataset

/-- Each row in turn is merged with the rows that `find` gives for it. -/
def probe {ε : Type} (left : Dataset) (find : Row → List Row) (spec : JoinSpec)
    (combine : Value → Value → Except ε Value) : Except ε Dataset := do
  let groups ← left.rows.mapM fun row => (find row).mapM (spec.merge combine row)
  pure ⟨spec.outputColumns, groups.flatten⟩

/-- Joins two datasets on equal keys. A hash table of the right rows finds those that have the key of
a left row. -/
def joinBy {ε : Type} (hasher : Hasher) (left right : Dataset) (spec : JoinSpec)
    (combine : Value → Value → Except ε Value) : Except ε Dataset :=
  let index := JoinIndex.build hasher spec right.rows
  left.probe (fun row => index.rows (spec.keyOf row)) spec combine

def join {ε : Type} (left right : Dataset) (spec : JoinSpec)
    (combine : Value → Value → Except ε Value) : Except ε Dataset :=
  joinBy .mixing left right spec combine

end Dataset

/-- The report of a join that succeeded. -/
def JoinSpec.record (spec : JoinSpec) (left right joined : Dataset) : LogRecord :=
  let counts := s!"{left.rows.length} x {right.rows.length} rows -> {joined.rows.length} rows"
  ⟨.trace, s!"hash join: {counts} on {spec.identifiers.length} identifier(s)"⟩

end Vtl
