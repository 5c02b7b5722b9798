import SqlCompose.DataKind
import SqlCompose.Text.Quoted

/-!
# Errors

Why a call or a compilation is refused. Each cause keeps what its message needs; the category says
what kind of mistake it is. A few causes have no message of their own.
-/
namespace SqlCompose

/-- The kinds of mistake. -/
inductive Error.Category
  /-- A statement or schema object cannot be rendered as valid SQL. -/
  | syntactic
  | value
  | type
  | missingKey
  /-- A place in a sequence that has fewer. -/
  | missingIndex
  | missingAttribute
  | notImplemented
  /-- A number that no operation can take, or a text that spells none. -/
  | invalidNumber
  /-- A number without end. -/
  | overflow
  /-- A number was to be divided by zero. -/
  | zeroDivision
  /-- A decimal number was to be divided by zero. -/
  | decimalZeroDivision
  /-- A decimal number would have too large an exponent. -/
  | decimalOverflow
  /-- Something would have more parts than can be held. -/
  | memory
  /-- A field of a declared object was given something that it cannot hold. -/
  | invalidField
  /-- A name stands for nothing. -/
  | undefined
deriving DecidableEq

/-- Why something was refused. A `shown` text is a value as messages display it. -/
inductive Error
  | unsupportedLiteral (shown typeName : String)
  | nonFiniteFloat (shown : String)
  | nonFiniteDecimal (text : String)
  | emptyValueList
  | unsupportedKind (kind dialect : String)
  | unnamedTable
  | tableWithoutColumns (table : String)
  | untypedColumn (column : String)
  | lengthNotAllowed (column keyword : String)
  | invalidAutoIncrement (column : String)
  | invalidCheck (column : String)
  | conflictingPrimaryKeys
  | unknownKeyColumn (column table : String)
  | invalidForeignKey
  | unknownForeignKeyColumn (column table : String)
  | scatteredReferences
  | unnamedIndex
  | indexWithoutColumns (index : String)
  | notAnIndexColumn
  | foreignIndexColumn (column table : String)
  | badCount (clause shown : String)
  | unaliasedSource
  | returningUnsupported (dialect : String)
  | foreignColumn (column table : String)
  | onAndUsing
  | conditionNotAllowed (kind : String)
  | emptySelect
  | pagedMember (operator : String)
  | valuesAndSelect
  | rowWidth (given expected : Nat)
  | emptyUpdate
  | unknownComparison (shown : String)
  | unknownConnective (shown : String)
  | emptyBoolean
  | missingSymbol (node : String)
  | wrongArity (node count : String)
  | emptyCombination (symbol : String)
  | badRange
  | emptyCoalesce
  | emptyConcat
  | duplicateColumn (shownColumn shownTable : String)
  | unsupportedScheme (scheme : String)
  | unknownDialectFields (names : List String)
  | unknownDialect (name : String)
  | malformedUrl
  | emptyWhere
  | emptyHaving
  | noLookupTable
  | unknownLookupColumn (shownKey shownTable shownColumn : String)
  | mixedValues
  | emptyValues
  | mismatchedValues
  | typeWithoutKind (text : String)
  | notAPredicate (clause shown typeName : String)
  | notASource (operation : String) (given : TypeTag)
  | notASelect (operation : String) (given : TypeTag)
  | notAnOrder (given : TypeTag)
  | notAColumn (given : TypeTag)
  | notADialect (given : TypeTag)
  | notAnExecutor (given : TypeTag)
  | notIterable (given : TypeTag)
  | notSpreadable (callee : String) (given : TypeTag)
  | notUnpackable (given : TypeTag)
  | tooManyValues (expected : Nat)
  | tooFewValues (expected given : Nat)
  | notMeasurable (given : TypeTag)
  | notSearchable (given : TypeTag)
  | notSubscriptable (holder : String)
  | badIndex (holder index : TypeTag)
  | notBytes (given : TypeTag)
  | notAnInteger (given : TypeTag)
  | notJoinable
  | badPart (index : Nat) (given : TypeTag)
  | badAlternative (method : String) (given : TypeTag)
  | notCallable (given : TypeTag)
  | notHashable (given : TypeTag)
  | signalingKey
  | notAnEntry (index : Nat)
  | entryLength (index given : Nat)
  | badConcatenation (target : TypeTag) (given : TypeTag)
  | badOperands (symbol : String) (left right : TypeTag)
  | badOperand (role expected : String) (given : TypeTag)
  /-- A text that spells no value of a type. -/
  | unspelled (target : TypeTag) (shown : String)
  /-- A whole number of too many digits to be written out. -/
  | tooManyDigits
  /-- A text of too many digits to be read as a whole number. -/
  | tooManyDigitsRead (count : Nat)
  | inconvertible (target given : TypeTag)
  | unencoded
  /-- A number without a whole part. -/
  | notWhole (shown : String)
  | endlessFloat
  | endlessWhole
  | endlessDecimal
  | signalingFloat
  | badTriple
  | byteRange (target : TypeTag)
  | negativeCount
  | badHour
  | takesNothing (callee : String)
  | missingField (name : String) (place : Nat)
  /-- A call that does not fit what is called. -/
  | misfit (complaint : String)
  | missingArgument (callee argument : String)
  | unexpectedArgument (callee argument : String)
  | repeatedArgument (callee argument : String)
  | unsupportedOperands
  | noSuchColumn (shownTable shownColumn : String)
  | noSuchAttribute (shownTable shownColumn : String)
  | lacksAttribute (holder name : String)
  | hiddenAttribute
  | hiddenKey
  | noSuchHelper (name : String)
  | indexOutOfRange (holder : TypeTag)
  | hiddenIndex
  | unbuildable
  | badField
  | badCall
  | badValue
  | badNumber
  | endlessNumber
  | zeroDivisor (isDecimal : Bool)
  | tooLarge
  | exhausted
  | undefinedName (name : String)
deriving DecidableEq

namespace Error

def category : Error → Category
  | unknownComparison .. | unknownConnective .. | emptyBoolean | missingSymbol .. | wrongArity ..
  | emptyCombination .. | badRange | emptyCoalesce | emptyConcat | duplicateColumn ..
  | unsupportedScheme .. | unknownDialectFields .. | unknownDialect .. | malformedUrl | emptyWhere
  | emptyHaving | noLookupTable | unknownLookupColumn .. | mixedValues | emptyValues
  | mismatchedValues | tooManyValues _ | tooFewValues .. | entryLength .. | badValue => .value
  | unspelled .decimal _ | badNumber => .invalidNumber
  | unspelled .. | tooManyDigits | tooManyDigitsRead _ | notWhole _ | signalingFloat | badTriple
  | byteRange _ | negativeCount | badHour => .value
  | typeWithoutKind .. | notAPredicate .. | notASource .. | notASelect .. | notAnOrder ..
  | notAColumn .. | notADialect .. | notAnExecutor .. | notIterable .. | notSpreadable ..
  | notUnpackable .. | notMeasurable .. | notSearchable .. | notSubscriptable .. | badIndex ..
  | notBytes _ | notAnInteger _ | notJoinable | badPart .. | badAlternative .. | notCallable ..
  | notHashable .. | signalingKey | notAnEntry .. | badConcatenation .. | badOperands ..
  | badOperand .. | inconvertible .. | unencoded | takesNothing _ | missingField .. | misfit _
  | missingArgument .. | unexpectedArgument .. | repeatedArgument .. | unsupportedOperands
  | badCall => .type
  | noSuchColumn .. | hiddenKey => .missingKey
  | indexOutOfRange _ | hiddenIndex => .missingIndex
  | noSuchAttribute .. | lacksAttribute .. | hiddenAttribute | noSuchHelper .. => .missingAttribute
  | unbuildable => .notImplemented
  | endlessNumber | endlessFloat | endlessDecimal | endlessWhole => .overflow
  | zeroDivisor isDecimal => if isDecimal then .decimalZeroDivision else .zeroDivision
  | tooLarge => .decimalOverflow
  | exhausted => .memory
  | badField => .invalidField
  | undefinedName _ => .undefined
  | _ => .syntactic

/-- The message of an error, if it has one. -/
def message : Error → Option String
  | unsupportedLiteral shown typeName =>
    some s!"Unsupported literal value `{shown}` of type `{typeName}`"
  | nonFiniteFloat shown => some s!"Non-finite float `{shown}` cannot be used as a literal"
  | nonFiniteDecimal text => some s!"Non-finite decimal `{text}` cannot be used as a literal"
  | emptyValueList => some "Value list must contain at least one value"
  | unsupportedKind kind dialect =>
    some s!"Data type {kind} is not supported by dialect {dialect}"
  | unnamedTable => some "Table name not set. "
  | tableWithoutColumns table => some s!"Table {table} has no columns. "
  | untypedColumn column => some s!"Column type not set for column {column}. "
  | lengthNotAllowed column keyword =>
    some s!"Length not allowed for column {column}: type {keyword} is already sized. "
  | invalidAutoIncrement column => some s!"Invalid autoincrement for column {column}. "
  | invalidCheck column => some s!"Invalid check expression for column {column}. "
  | conflictingPrimaryKeys => some "Conflicting definitions of primary key. "
  | unknownKeyColumn column table =>
    some s!"Primary key column {column} is not a column of {table}. "
  | invalidForeignKey => some "Invalid definition of foreign key. "
  | unknownForeignKeyColumn column table =>
    some s!"Foreign key column {column} is not a column of {table}. "
  | scatteredReferences => some "Foreign key references must belong to a single table. "
  | unnamedIndex => some "Index name not set. "
  | indexWithoutColumns index => some s!"Index {index} has no columns. "
  | notAnIndexColumn => some "Index columns must be columns or ordered columns. "
  | foreignIndexColumn column table =>
    some s!"Index column {column} does not belong to table {table}. "
  | badCount clause shown => some s!"{clause} must be a non-negative integer; got {shown}"
  | unaliasedSource => some "A subquery used as a table must have an alias. "
  | returningUnsupported dialect => some s!"RETURNING is not supported by dialect {dialect}. "
  | foreignColumn column table => some s!"Column {column} does not belong to table {table}. "
  | onAndUsing => some "A join cannot have both ON and USING. "
  | conditionNotAllowed kind => some s!"{kind} JOIN takes no condition. "
  | emptySelect => some "Select has no columns and no tables. "
  | pagedMember operator => some s!"{operator} member cannot be ordered or paged. "
  | valuesAndSelect => some "An insert cannot have both values and a select. "
  | rowWidth given expected => some s!"Row has {given} values but {expected} columns are expected. "
  | emptyUpdate => some "Update has no values to set. "
  | unknownComparison shown => some s!"Unknown comparison operator: {shown}"
  | unknownConnective shown =>
    some s!"BooleanExpression symbol must be AND or OR, not {shown}"
  | emptyBoolean => some "BooleanExpression must have at least one argument"
  | missingSymbol node => some s!"{node} must have a symbol"
  | wrongArity node count => some s!"{node} must have {count}"
  | emptyCombination symbol => some s!"{symbol} requires at least one predicate"
  | badRange => some "between requires two bounds or a (low, high) pair"
  | emptyCoalesce => some "coalesce requires at least one argument"
  | emptyConcat => some "concat requires at least one argument"
  | duplicateColumn column table => some s!"Duplicate column name {column} in table {table}"
  | unsupportedScheme scheme => some s!"Unsupported database scheme: {scheme}"
  | unknownDialectFields names => some ("Unknown dialect field(s): " ++ ", ".intercalate names)
  | unknownDialect name => some s!"No dialect configured with name=`{name}`"
  | malformedUrl => none
  | emptyWhere => some "where requires at least one predicate or lookup"
  | emptyHaving => some "having requires at least one predicate"
  | noLookupTable => some "where(**kwargs) requires a FROM table to resolve column names"
  | unknownLookupColumn key table column =>
    some s!"where kwargs key {key}: table {table} has no column {column}"
  | mixedValues => some "values() takes positional values or keyword values, not both"
  | emptyValues => some "values() requires at least one value"
  | mismatchedValues => some "values() keys must match the insert's columns"
  | typeWithoutKind text => some s!"Type `{text}` has no known conversion to SQL type"
  | notAPredicate clause shown typeName =>
    some s!"{clause} requires expressions; got {shown} of type {typeName}"
  | notASource operation given =>
    some s!"{operation} requires Table or subquery; got {given.description}"
  | notASelect operation given => some s!"{operation} requires a Select; got {given.description}"
  | notAnOrder given =>
    some s!"order_by requires an expression or OrderExpression; got {given.description}"
  | notAColumn given => some s!"Table columns must be Column instances; got {given.description}"
  | notADialect given =>
    some s!"use() requires a Dialect, a scheme or a URL; got {given.description}"
  | notAnExecutor given =>
    some s!"executor must have an execute(sql, parameters) method; got {given.description}"
  | notIterable given => some s!"'{given.qualifiedName}' object is not iterable"
  | notSpreadable callee given =>
    some s!"{callee}() argument after * must be an iterable, not {given.qualifiedName}"
  | notUnpackable given => some s!"cannot unpack non-iterable {given.qualifiedName} object"
  | tooManyValues expected => some s!"too many values to unpack (expected {expected})"
  | tooFewValues expected given =>
    some s!"not enough values to unpack (expected {expected}, got {given})"
  | notMeasurable given => some s!"object of type '{given.qualifiedName}' has no len()"
  | notSearchable given => some s!"argument of type '{given.qualifiedName}' is not iterable"
  | notSubscriptable holder => some s!"{holder} is not subscriptable"
  | badIndex holder index =>
    some (match holder with
      | .text => s!"string indices must be integers, not '{index.qualifiedName}'"
      | .bytes => s!"byte indices must be integers or slices, not {index.qualifiedName}"
      | _ => s!"{holder.name} indices must be integers or slices, not {index.qualifiedName}")
  | notBytes given => some s!"a bytes-like object is required, not '{given.qualifiedName}'"
  | notAnInteger given =>
    some s!"'{given.qualifiedName}' object cannot be interpreted as an integer"
  | notJoinable => some "can only join an iterable"
  | badPart index given =>
    some s!"sequence item {index}: expected str instance, {given.qualifiedName} found"
  | badAlternative method given =>
    some s!"tuple for {method} must only contain str, not {given.qualifiedName}"
  | notCallable given => some s!"'{given.qualifiedName}' object is not callable"
  | notHashable given => some s!"unhashable type: '{given.qualifiedName}'"
  | signalingKey => some "Cannot hash a signaling NaN value"
  | notAnEntry index =>
    some s!"cannot convert dictionary update sequence element #{index} to a sequence"
  | entryLength index given =>
    some s!"dictionary update sequence element #{index} has length {given}; 2 is required"
  | badConcatenation target given =>
    some (match target with
      | .bytes | .bytearray => s!"can't concat {given.qualifiedName} to {target.name}"
      | _ =>
        s!"can only concatenate {target.name} (not \"{given.qualifiedName}\") to {target.name}")
  | badOperands symbol left right =>
    some (s!"unsupported operand type(s) for {symbol}: '{left.qualifiedName}' and "
      ++ s!"'{right.qualifiedName}'")
  | badOperand role expected given =>
    some s!"{role} must be {expected}, not {given.qualifiedName}"
  | unspelled target shown =>
    some (match target with
      | .decimal => "[<class 'decimal.ConversionSyntax'>]"
      | .complex => "complex() arg is a malformed string"
      | .int => s!"invalid literal for int() with base 10: {shown}"
      | _ => s!"could not convert string to {target.name}: {shown}")
  | tooManyDigits =>
    some ("Exceeds the limit (4300 digits) for integer string conversion; "
      ++ "use sys.set_int_max_str_digits() to increase the limit")
  | tooManyDigitsRead count =>
    some (s!"Exceeds the limit (4300 digits) for integer string conversion: value has {count} "
      ++ "digits; use sys.set_int_max_str_digits() to increase the limit")
  | inconvertible target given =>
    some (match target with
      | .int =>
        "int() argument must be a string, a bytes-like object or a real number, not '"
          ++ given.qualifiedName ++ "'"
      | .float =>
        s!"float() argument must be a string or a real number, not '{given.qualifiedName}'"
      | .complex =>
        s!"complex() first argument must be a string or a number, not '{given.qualifiedName}'"
      | .decimal => s!"conversion from {given.qualifiedName} to Decimal is not supported"
      | _ => s!"cannot convert '{given.qualifiedName}' object to {target.name}")
  | unencoded => some "string argument without an encoding"
  | notWhole shown => some s!"cannot convert {shown} to integer"
  | endlessWhole => some "int too large to convert to float"
  | endlessFloat => some "cannot convert float infinity to integer"
  | endlessDecimal => some "cannot convert Infinity to integer"
  | signalingFloat => some "cannot convert signaling NaN to float"
  | badTriple => some "argument must be a sequence of length 3"
  | byteRange target =>
    some (match target with
      | .bytearray => "byte must be in range(0, 256)"
      | _ => "bytes must be in range(0, 256)")
  | negativeCount => some "negative count"
  | badHour => some "hour must be in 0..23"
  | takesNothing callee => some s!"{callee} takes no arguments"
  | missingField name place =>
    some s!"function missing required argument '{name}' (pos {place})"
  | misfit complaint => some complaint
  | missingArgument callee argument =>
    some s!"{callee}() missing 1 required positional argument: '{argument}'"
  | unexpectedArgument callee argument =>
    some s!"{callee}() got an unexpected keyword argument '{argument}'"
  | repeatedArgument callee argument =>
    some s!"{callee}() got multiple values for keyword argument '{argument}'"
  | unsupportedOperands => none
  | noSuchColumn table column | noSuchAttribute table column =>
    some s!"Table {table} has no column {column}"
  | lacksAttribute holder name => some s!"{holder} has no attribute '{name}'"
  | hiddenAttribute => none
  | hiddenKey => none
  | noSuchHelper name => some name
  | indexOutOfRange holder =>
    some (match holder with
      | .text => "string index out of range"
      | .bytes => "index out of range"
      | _ => s!"{holder.name} index out of range")
  | hiddenIndex => none
  | unbuildable => some "Subclasses must implement `build`"
  | badField => none
  | badCall => none
  | badValue => none
  | badNumber => none
  | endlessNumber => none
  | zeroDivisor _ | tooLarge | exhausted => none
  | undefinedName name => some name

/-- What goes wrong while something is shown of which a value only says that it is a part. That a
number has too many digits is explained only where it is written out by itself. -/
def unexplained : Error → Error
  | tooManyDigits => badValue
  | e => e

/-- The same kind of mistake without a message. -/
def silent (e : Error) : Error :=
  match e.category with
  | .value => badValue
  | .type => badCall
  | .missingKey => hiddenKey
  | .missingIndex => hiddenIndex
  | .missingAttribute => hiddenAttribute
  | .invalidNumber => badNumber
  | .overflow => endlessNumber
  | _ => e

end Error

end SqlCompose
