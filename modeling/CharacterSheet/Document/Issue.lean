/-!
# Issues in documents

What is wrong with a document, and where: the path leads from the top of the document through names
and positions.
-/

namespace CharacterSheet

/-- A step into a document. -/
inductive Step where
  | name (s : String)
  | index (n : Int)
  deriving DecidableEq, Repr

inductive IssueKind where
  | missing | extraForbidden | invalidKey | modelType
  | stringType | stringUnicode
  | intType | intParsing | intParsingSize | intFromFloat | finiteNumber | greaterThanEqual
  | boolType | boolParsing
  | listType | mapType
  | notAMember
  deriving DecidableEq, Repr

def IssueKind.name : IssueKind → String
  | missing => "missing"
  | extraForbidden => "extra_forbidden"
  | invalidKey => "invalid_key"
  | modelType => "model_type"
  | stringType => "string_type"
  | stringUnicode => "string_unicode"
  | intType => "int_type"
  | intParsing => "int_parsing"
  | intParsingSize => "int_parsing_size"
  | intFromFloat => "int_from_float"
  | finiteNumber => "finite_number"
  | greaterThanEqual => "greater_than_equal"
  | boolType => "bool_type"
  | boolParsing => "bool_parsing"
  | listType => "list_type"
  | mapType => "dict_type"
  | notAMember => "enum"

structure Issue where
  path : List Step
  kind : IssueKind
  deriving DecidableEq, Repr

end CharacterSheet
