import Vtl.ResolveError
import Vtl.Value.Basic

namespace Vtl

namespace ArithmeticOp

/-- Integers are added, subtracted and multiplied within 64 bits. They are not divided. -/
def onIntegers? : ArithmeticOp → Option (Int64 → Int64 → Int64)
  | .add => some (· + ·)
  | .sub => some (· - ·)
  | .mul => some (· * ·)
  | .div => none

def onNumbers : ArithmeticOp → Number → Number → Number
  | .add => .add
  | .sub => .sub
  | .mul => .mul
  | .div => .div

/-- Applies an operator to two values. Null gives null. A date counts as its day number, and a result
that a date takes part in is a whole count of days. A quotient is always a number. -/
def apply (op : ArithmeticOp) (left right : Value) : Except ResolveError Value :=
  if left.isNull || right.isNull then .ok .null
  else
    match op.onIntegers?, left.dayCount, right.dayCount with
    | some operation, .integer a, .integer b => .ok (.integer (operation a b))
    | operation?, l, r =>
      match l.toNumber?, r.toNumber? with
      | some a, some b =>
        let result := op.onNumbers a b
        let days := operation?.isSome && (left.type = .date || right.type = .date)
        .ok (if days then .integer result.truncate else .number result)
      | _, _ => .error (.operands (.arithmetic op) left.type right.type)

end ArithmeticOp

def UnaryOp.apply : UnaryOp → Value → Except ResolveError Value
  | _, .null => .ok .null
  | .plus, .integer i => .ok (.integer i)
  | .plus, .number n => .ok (.number n)
  | .minus, .integer i => .ok (.integer (-i))
  | .minus, .number n => .ok (.number n.neg)
  | .not, .boolean b => .ok (.boolean !b)
  | op, value => .error (.operand op value.type)

/-- The truth of a boolean, unknown for null. Other values have none. -/
def Value.truth? : Value → Option (Option Bool)
  | .null => some none
  | .boolean b => some (some b)
  | _ => none

namespace BooleanOp

/-- Logic with an unknown: a connective is known as soon as one side settles it. -/
def kleene : BooleanOp → Option Bool → Option Bool → Option Bool
  | .and, some false, _ => some false
  | .and, _, some false => some false
  | .and, some true, some true => some true
  | .or, some true, _ => some true
  | .or, _, some true => some true
  | .or, some false, some false => some false
  | .xor, some a, some b => some (a != b)
  | _, _, _ => none

def apply (op : BooleanOp) (left right : Value) : Except ResolveError Value :=
  match left.truth?, right.truth? with
  | some a, some b =>
    .ok (match op.kleene a b with
      | some truth => .boolean truth
      | none => .null)
  | _, _ => .error (.operands (.boolean op) left.type right.type)

end BooleanOp

/-- The rank of a period indicator, from a day to a year. The long s is a letter s, too. -/
def periodRank? (indicator : String) : Option Nat :=
  match indicator.toList with
  | ['D'] | ['d'] => some 1
  | ['W'] | ['w'] => some 2
  | ['M'] | ['m'] => some 3
  | ['Q'] | ['q'] => some 4
  | ['S'] | ['s'] | ['ſ'] => some 5
  | ['A'] | ['a'] => some 6
  | _ => none

/-- Periods are ordered by rank, and by their text if one of them has no rank. -/
def periodOrder (left right : String) : Ordering :=
  match periodRank? left, periodRank? right with
  | some a, some b => compare a b
  | _, _ => compare left right

/-- The order of two values: `none` if they cannot be compared, and `some none` if they can but are
not ordered, as when one of them is NaN. -/
def Value.order? : Value → Value → Option (Option Ordering)
  | .integer a, .integer b => some (some (compare a.toInt b.toInt))
  | .integer a, .number b => some ((Number.ofInt a.toInt).order? b)
  | .number a, .integer b => some (a.order? (.ofInt b.toInt))
  | .number a, .number b => some (a.order? b)
  | .string a, .string b => some (some (compare a b))
  | .boolean a, .boolean b => some (some (compare a b))
  | .date a, .date b => some (some (a.order b))
  | .duration a, .duration b => some (some (periodOrder a b))
  | _, _ => none

namespace ComparisonOp

def holds : ComparisonOp → Ordering → Bool
  | .eq, order => order == .eq
  | .ne, order => order != .eq
  | .lt, order => order == .lt
  | .le, order => order != .gt
  | .gt, order => order == .gt
  | .ge, order => order != .lt

/-- Compares two values. Null gives null, and of values without order only `<>` holds. -/
def apply (op : ComparisonOp) (left right : Value) : Except ResolveError Value :=
  if left.isNull || right.isNull then .ok .null
  else
    match left.order? right with
    | some (some order) => .ok (.boolean (op.holds order))
    | some none => .ok (.boolean (op = .ne))
    | none => .error (.operands (.comparison op) left.type right.type)

end ComparisonOp

/-- Joins two strings. Null gives null. -/
def concatenate : Value → Value → Except ResolveError Value
  | .null, _ => .ok .null
  | _, .null => .ok .null
  | .string a, .string b => .ok (.string (a ++ b))
  | left, right => .error (.operands .concat left.type right.type)

end Vtl
