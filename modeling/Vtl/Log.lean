namespace Vtl

inductive LogLevel where
  | trace
  | debug
  | info
  | warn
  | error
deriving DecidableEq

def LogLevel.text : LogLevel → String
  | .trace => "TRACE"
  | .debug => "DEBUG"
  | .info => "INFO"
  | .warn => "WARN"
  | .error => "ERROR"

/-- Something the engine reports beside its result. -/
structure LogRecord where
  level : LogLevel
  message : String
deriving DecidableEq

def LogRecord.line (record : LogRecord) : String := s!"{record.level.text} {record.message}"

end Vtl
