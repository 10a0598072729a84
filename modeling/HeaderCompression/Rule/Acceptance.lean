import HeaderCompression.Column
import HeaderCompression.Rule.Device

namespace HeaderCompression

namespace Column

def matchesValue (column : Column) (target : List UInt8) : Bool :=
  column.value == target

def matchesMsb (column : Column) (target : List UInt8) (count : Nat) : Bool :=
  if target.length ≠ column.value.length ∨ count > column.bits then false
  else if count = column.bits then column.matchesValue target
  else
    let offset := 8 * column.value.length - column.bits
    match Bits.agree column.value offset target offset count with
    | .ok same => same
    | .error _ => false

def placeIn? (column : Column) (values : List (List UInt8)) : Option Nat :=
  values.findIdx? column.matchesValue

end Column

namespace RuleField

def matchesLength (f : RuleField) (column : Column) : Bool :=
  match f.length with
  | .fixed bits => column.bits == bits
  | .token | .variable => column.bits % 8 == 0

def matchesOperator (f : RuleField) (column : Column) : Bool :=
  match f.operator with
  | .ignore => true
  | .equal => f.target.single?.any column.matchesValue
  | .msb count => f.target.single?.any (column.matchesMsb · count)
  | .mapping => f.target.list?.any fun values => (column.placeIn? values).isSome

def accepts (f : RuleField) (column : Column) : Bool :=
  f.field == column.field && f.matchesLength column && f.matchesOperator column

end RuleField

namespace Rule

/-- Whether the rule has a field for each column and each field accepts its column. -/
def accepts (rule : Rule) (columns : List Column) (direction : Direction) : Bool :=
  let fields := rule.fieldsFor direction
  fields.length == columns.length && (fields.zip columns).all fun (f, column) => f.accepts column

def select? (rules : List Rule) (columns : List Column) (direction : Direction) : Option Rule :=
  rules.find? (·.accepts columns direction)

end Rule

end HeaderCompression
