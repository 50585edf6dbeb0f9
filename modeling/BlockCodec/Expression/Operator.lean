namespace BlockCodec

inductive UnaryOp where
  | negate
  | not
  deriving DecidableEq

inductive BinaryOp where
  | add
  | and
  | divide
  | equal
  | greater
  | greaterEqual
  | less
  | lessEqual
  | multiply
  | notEqual
  | or
  | power
  | remainder
  | subtract
  deriving DecidableEq

inductive TernaryOp where
  | ifElse
  deriving DecidableEq

inductive TypeCheck where
  | isBool
  | isDatetime
  | isMissing
  | isNumber
  | isString
  deriving DecidableEq

inductive Conversion where
  | bool
  | datetime
  | number
  | string
  deriving DecidableEq

inductive DatePart where
  | year
  | month
  | day
  | weekday
  | hours
  | minutes
  | seconds
  deriving DecidableEq

namespace UnaryOp

def all : List UnaryOp := [negate, not]

def name : UnaryOp → String
  | negate => "negate"
  | not => "not"

def description : UnaryOp → String
  | negate => "Arithmetic negation"
  | not => "Logical negation"

end UnaryOp

namespace BinaryOp

def all : List BinaryOp :=
  [add, and, divide, equal, greater, greaterEqual, less, lessEqual, multiply, notEqual, or, power,
    remainder, subtract]

def name : BinaryOp → String
  | add => "add"
  | and => "and"
  | divide => "divide"
  | equal => "equal"
  | greater => "greater"
  | greaterEqual => "greaterEqual"
  | less => "less"
  | lessEqual => "lessEqual"
  | multiply => "multiply"
  | notEqual => "notEqual"
  | or => "or"
  | power => "power"
  | remainder => "remainder"
  | subtract => "subtract"

def description : BinaryOp → String
  | add => "Sum of two values"
  | and => "Logical conjunction"
  | divide => "Quotient of two values"
  | equal => "Equality test"
  | greater => "Strictly greater than"
  | greaterEqual => "Greater than or equal"
  | less => "Strictly less than"
  | lessEqual => "Less than or equal"
  | multiply => "Product of two values"
  | notEqual => "Inequality test"
  | or => "Logical disjunction"
  | power => "Left raised to the power of right"
  | remainder => "Remainder after division"
  | subtract => "Difference of two values"

end BinaryOp

namespace TernaryOp

def all : List TernaryOp := [ifElse]

def name : TernaryOp → String
  | ifElse => "ifElse"

def description : TernaryOp → String
  | ifElse => "Choose between two values on a condition"

end TernaryOp

namespace TypeCheck

def all : List TypeCheck := [isBool, isDatetime, isMissing, isNumber, isString]

def name : TypeCheck → String
  | isBool => "isBool"
  | isDatetime => "isDatetime"
  | isMissing => "isMissing"
  | isNumber => "isNumber"
  | isString => "isString"

def description : TypeCheck → String
  | isBool => "Is the value a boolean?"
  | isDatetime => "Is the value a datetime?"
  | isMissing => "Is the value missing?"
  | isNumber => "Is the value a number?"
  | isString => "Is the value a string?"

end TypeCheck

namespace Conversion

def all : List Conversion := [bool, datetime, number, string]

def name : Conversion → String
  | bool => "toBool"
  | datetime => "toDatetime"
  | number => "toNumber"
  | string => "toString"

def description : Conversion → String
  | bool => "Convert to boolean"
  | datetime => "Convert to datetime"
  | number => "Convert to number"
  | string => "Convert to string"

end Conversion

namespace DatePart

def all : List DatePart := [year, month, day, weekday, hours, minutes, seconds]

def name : DatePart → String
  | year => "toYear"
  | month => "toMonth"
  | day => "toDay"
  | weekday => "toWeekday"
  | hours => "toHours"
  | minutes => "toMinutes"
  | seconds => "toSeconds"

def description : DatePart → String
  | year => "Year of a datetime"
  | month => "Month of a datetime (1-12)"
  | day => "Day of month of a datetime"
  | weekday => "Day of week of a datetime"
  | hours => "Hours of a datetime"
  | minutes => "Minutes of a datetime"
  | seconds => "Seconds of a datetime"

end DatePart

end BlockCodec
