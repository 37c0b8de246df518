import TokenSearch.Text.Quoted

namespace TokenSearch.Settings

/-! What can be wrong with a setting. -/

/-- The settings, in the order in which they are checked and listed. -/
inductive Field where
  | indexDir
  | extensions
  | skipDirs
  | maxFileBytes
  | maxWorkers
  | searchLimit
  | logLevel
  | logJson
  | otlpEndpoint
  | otlpTimeout
  | metricsFile
deriving DecidableEq, Repr

namespace Field

def all : List Field :=
  [.indexDir, .extensions, .skipDirs, .maxFileBytes, .maxWorkers, .searchLimit, .logLevel,
    .logJson, .otlpEndpoint, .otlpTimeout, .metricsFile]

def name : Field → String
  | .indexDir => "index_dir"
  | .extensions => "extensions"
  | .skipDirs => "skip_dirs"
  | .maxFileBytes => "max_file_bytes"
  | .maxWorkers => "max_workers"
  | .searchLimit => "search_limit"
  | .logLevel => "log_level"
  | .logJson => "log_json"
  | .otlpEndpoint => "otlp_endpoint"
  | .otlpTimeout => "otlp_timeout_s"
  | .metricsFile => "metrics_file"

def ofName? (name : String) : Option Field :=
  all.find? (fun field => field.name = name)

end Field

inductive Cause where
  | notText
  | notInteger
  | unreadableInteger
  | fraction
  | infinite
  | tooLong
  | notBoolean
  | unreadableBoolean
  | notNumber
  | unreadableNumber
  | below (least : Int)
  | notPositive
  | noExtension
deriving DecidableEq, Repr

namespace Cause

def code : Cause → String
  | .notText => "string_type"
  | .notInteger => "int_type"
  | .unreadableInteger => "int_parsing"
  | .fraction => "int_from_float"
  | .infinite => "finite_number"
  | .tooLong => "int_parsing_size"
  | .notBoolean => "bool_type"
  | .unreadableBoolean => "bool_parsing"
  | .notNumber => "float_type"
  | .unreadableNumber => "float_parsing"
  | .below _ => "greater_than_equal"
  | .notPositive => "greater_than"
  | .noExtension => "value_error"

def message : Cause → String
  | .notText => "Input should be a valid string"
  | .notInteger => "Input should be a valid integer"
  | .unreadableInteger => "Input should be a valid integer, unable to parse string as an integer"
  | .fraction => "Input should be a valid integer, got a number with a fractional part"
  | .infinite => "Input should be a finite number"
  | .tooLong => "Unable to parse input string as an integer, exceeded maximum size"
  | .notBoolean => "Input should be a valid boolean"
  | .unreadableBoolean => "Input should be a valid boolean, unable to interpret input"
  | .notNumber => "Input should be a valid number"
  | .unreadableNumber => "Input should be a valid number, unable to parse string as a number"
  | .below least => "Input should be greater than or equal to " ++ toString least
  | .notPositive => "Input should be greater than 0"
  | .noExtension =>
      "Value error, LOOKER_EXTENSIONS must name at least one file suffix (e.g. 'c,h')"

end Cause

/-- What was given: one text, or all texts under their names. -/
inductive Given where
  | text (value : String)
  | named (values : List (String × String))
deriving DecidableEq, Repr

/-- A fault of one field, or of the fields together. -/
structure Problem where
  field : Option Field
  cause : Cause
  given : Given
deriving DecidableEq, Repr

def Problem.message (problem : Problem) : String :=
  ((problem.field.map Field.name).getD "") ++ ": " ++ problem.cause.message

end TokenSearch.Settings
