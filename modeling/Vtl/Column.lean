namespace Vtl

/-- The types of the language. `null` is the type of the literal of that name, and stands for any
other type where one is expected. -/
inductive ValueType where
  | integer
  | number
  | string
  | boolean
  | date
  | duration
  | dataset
  | null
deriving DecidableEq

namespace ValueType

def all : List ValueType :=
  [.integer, .number, .string, .boolean, .date, .duration, .dataset, .null]

def scalars : List ValueType :=
  [.integer, .number, .string, .boolean, .date, .duration, .null]

def text : ValueType → String
  | .integer => "INTEGER"
  | .number => "NUMBER"
  | .string => "STRING"
  | .boolean => "BOOLEAN"
  | .date => "DATE"
  | .duration => "DURATION"
  | .dataset => "DATASET"
  | .null => "NULL"

def ofText? (text : String) : Option ValueType := all.find? fun type => type.text == text

def isNumeric (type : ValueType) : Bool := type = .integer || type = .number

def isScalar (type : ValueType) : Bool := type ≠ .dataset

end ValueType

/-- What a column is to its dataset: part of the identity of a row, a quantity, or a remark. -/
inductive Role where
  | identifier
  | measure
  | attribute
deriving DecidableEq

namespace Role

def all : List Role := [.identifier, .measure, .attribute]

def text : Role → String
  | .identifier => "IDENTIFIER"
  | .measure => "MEASURE"
  | .attribute => "ATTRIBUTE"

def ofText? (text : String) : Option Role := all.find? fun role => role.text == text

end Role

structure Column where
  name : String
  role : Role
  type : ValueType
deriving DecidableEq

/-- The columns of two schemas that agree in name, role and type, by role. -/
structure CommonColumns where
  identifiers : List Column
  measures : List Column
  attributes : List Column
deriving DecidableEq

/-- Common columns stand in the order of the left schema, as often as they stand there. -/
def CommonColumns.between (left right : List Column) : CommonColumns :=
  let common := left.filter fun column => column ∈ right
  { identifiers := common.filter fun column => column.role = .identifier
    measures := common.filter fun column => column.role = .measure
    attributes := common.filter fun column => column.role = .attribute }

end Vtl
