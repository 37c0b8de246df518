namespace TokenSearch.Table

/-! Why a change of a table is refused. -/

inductive Error where
  | cannotOpen
  | unreadable
  | notDatabase
  | noTable (name : String)
  | noColumn (name : String)
  | strangeColumn (table column : String)
  | missingValue (table column : String)
  | repeatedKey (table : String) (columns : List String)
  | wrongKind
deriving DecidableEq, Repr

namespace Error

def message : Error → String
  | .cannotOpen => "unable to open database file"
  | .unreadable => "disk I/O error"
  | .notDatabase => "file is not a database"
  | .noTable name => "no such table: " ++ name
  | .noColumn name => "no such column: " ++ name
  | .strangeColumn table column => "table " ++ table ++ " has no column named " ++ column
  | .missingValue table column => "NOT NULL constraint failed: " ++ table ++ "." ++ column
  | .repeatedKey table columns =>
      "UNIQUE constraint failed: " ++
        ", ".intercalate (columns.map (fun column => table ++ "." ++ column))
  | .wrongKind => "datatype mismatch"

/-- The name under which errors of this kind are counted. -/
def label : Error → String
  | .cannotOpen | .unreadable | .noTable _ | .noColumn _ | .strangeColumn _ _ => "OperationalError"
  | .notDatabase => "DatabaseError"
  | .missingValue _ _ | .repeatedKey _ _ | .wrongKind => "IntegrityError"

end Error

end TokenSearch.Table
