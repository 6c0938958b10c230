import FluentSql.Condition.Basic
import FluentSql.Identifier
import FluentSql.Text.Quoted

namespace FluentSql

/-- What a name is given for. -/
inductive Role where
  | table
  | column
  | primaryKey
  deriving DecidableEq, Repr

def Role.text : Role → Text
  | table => "table name".toList
  | column => "column".toList
  | primaryKey => "primary key".toList

/-- The two statements that a missing filter lets loose on a whole table. -/
inductive Write where
  | update
  | delete
  deriving DecidableEq, Repr

def Write.text : Write → Text
  | update => "update".toList
  | delete => "delete".toList

/-- Why a request is refused before there is a statement. -/
inductive Refusal where
  | badIdentifier (cause : Identifier.Fault)
  | badName (role : Role) (raw : Text) (cause : Identifier.Fault)
  | noTable
  | noColumns (write : Text)
  | unfiltered (write : Write) (table : Identifier)
  | badDirection (raw : Text)
  | other (message : Text)
  deriving DecidableEq, Repr

def Refusal.message : Refusal → Text
  | badIdentifier cause => cause.message
  | badName role raw cause =>
    "invalid ".toList ++ role.text ++ ' ' :: Text.quoted raw ++ ": ".toList ++ cause.message
  | noTable => "no target table".toList
  | noColumns write => write ++ " requires at least one column".toList
  | unfiltered write table =>
    write.text ++ " on ".toList ++ table.toSql ++
      " without a WHERE clause is not allowed (use allow_unfiltered(true))".toList
  | badDirection raw =>
    "invalid sort direction ".toList ++ Text.quoted raw ++ ": expected ASC or DESC".toList
  | other message => message

/-- Why a connection cannot be made. -/
inductive ConnectionFault where
  | unsupportedDriver (driver : Text) (supported : List Text)
  | unsupportedCharset (charset : Text)
  | other (message : Text)
  deriving DecidableEq, Repr

def ConnectionFault.message : ConnectionFault → Text
  | unsupportedDriver driver supported =>
    "unsupported driver '".toList ++ driver ++ "': expected one of ".toList ++
      Text.joinWith [',', ' '] supported
  | unsupportedCharset charset =>
    "unsupported charset '".toList ++ charset ++ "': only UTF8 is available".toList
  | other message => message

/-- Why a statement was not prepared, bound or executed. -/
inductive StatementFault where
  | parameterCount (expected given : Nat)
  | parameter (index : Nat)
  | database
  | closed
  /-- The text of a statement cannot hold the character that ends it in a message. -/
  | unsendable
  deriving DecidableEq, Repr

def StatementFault.message : StatementFault → Text
  | parameterCount expected given =>
    "expected ".toList ++ Text.decimal expected ++ " parameters but got ".toList ++
      Text.decimal given
  | parameter index => "error serializing parameter ".toList ++ Text.decimal index
  | database => "db error".toList
  | closed => "connection closed".toList
  | unsendable => "error encoding message to server".toList

inductive BindingFault where
  | unbound (name : Text)
  | other (message : Text)
  deriving DecidableEq, Repr

def BindingFault.message : BindingFault → Text
  | unbound name => "no value bound for placeholder :".toList ++ name
  | other message => message

/-- Why a column of a row has no value. -/
inductive DecodeFault where
  | missing
  | malformed (index : Nat)
  | unsupported (type : Text)
  | other (message : Text)
  deriving DecidableEq, Repr

def DecodeFault.message : DecodeFault → Text
  | missing => "column not present in result".toList
  | malformed index => "error deserializing column ".toList ++ Text.decimal index
  | unsupported type => "unsupported column type ".toList ++ type
  | other message => message

/-- Why a configuration cannot be loaded; what is wrong inside a document is not told. -/
inductive ConfigFault where
  | badPort (raw : Text)
  | badUrl (reason : Text)
  | unsupportedScheme (scheme : Text)
  | badDocument
  | unreadable (path reason : Text)
  | other (message : Text)
  deriving DecidableEq, Repr

def ConfigFault.message : ConfigFault → Text
  | badPort raw => "DB_PORT is not a valid port: ".toList ++ Text.quoted raw
  | badUrl reason => "invalid URL: ".toList ++ reason
  | unsupportedScheme scheme => "unsupported URL scheme '".toList ++ scheme ++ ['\'']
  | badDocument => "malformed document".toList
  | unreadable path reason => path ++ ": ".toList ++ reason
  | other message => message

inductive Error where
  | connection (cause : ConnectionFault)
  | statement (cause : StatementFault)
  | binding (cause : BindingFault)
  | uniqueViolation (message : Text)
  | foreignKeyViolation (message : Text)
  | checkViolation (message : Text)
  | condition (cause : Condition.Fault)
  | decode (column : Text) (cause : DecodeFault)
  | validation (cause : Refusal)
  | config (cause : ConfigFault)
  deriving DecidableEq, Repr

namespace Error

def message : Error → Text
  | connection cause => "Connection error: ".toList ++ cause.message
  | statement cause => "Statement error: ".toList ++ cause.message
  | binding cause => "Statement error: ".toList ++ cause.message
  | uniqueViolation m => "Unique constraint violation: ".toList ++ m
  | foreignKeyViolation m => "Foreign key violation: ".toList ++ m
  | checkViolation m => "Check constraint violation: ".toList ++ m
  | condition cause => "Condition error: ".toList ++ cause.message
  | decode column cause =>
    "Decode error on column '".toList ++ column ++ "': ".toList ++ cause.message
  | validation cause => "Validation error: ".toList ++ cause.message
  | config cause => "Config error: ".toList ++ cause.message

/-- The connection could not be established. -/
def isConnection : Error → Bool
  | connection _ => true
  | _ => false

/-- Preparing, binding or executing a statement failed. -/
def isStatement : Error → Bool
  | statement _ => true
  | binding _ => true
  | uniqueViolation _ => true
  | foreignKeyViolation _ => true
  | checkViolation _ => true
  | _ => false

def isUnique : Error → Bool
  | uniqueViolation _ => true
  | _ => false

end Error

end FluentSql
