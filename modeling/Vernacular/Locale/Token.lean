/-!
# Token names

Every built-in keyword, type, value, command and expression of Gobstones has one name that belongs
to no language.  A locale gives each of them a spelling.
-/

namespace Vernacular.Token

def definitionNames : List String :=
  ["GBS_DEFINITION_PROGRAM", "GBS_DEFINITION_INTERACTIVE", "GBS_DEFINITION_PROCEDURE",
   "GBS_DEFINITION_FUNCTION", "GBS_DEFINITION_RETURN", "GBS_DEFINITION_TYPE",
   "GBS_DEFINITION_IS", "GBS_DEFINITION_RECORD", "GBS_DEFINITION_VARIANT",
   "GBS_DEFINITION_CASE", "GBS_DEFINITION_FIELD"]

def controlNames : List String :=
  ["GBS_CONTROL_IF", "GBS_CONTROL_THEN", "GBS_CONTROL_ELSE", "GBS_CONTROL_ELSEIF",
   "GBS_CONTROL_CHOOSE", "GBS_CONTROL_WHEN", "GBS_CONTROL_OTHERWISE", "GBS_CONTROL_SWITCH",
   "GBS_CONTROL_TO", "GBS_CONTROL_MATCHING", "GBS_CONTROL_SELECT", "GBS_CONTROL_ON",
   "GBS_CONTROL_DEFAULT", "GBS_CONTROL_REPEAT", "GBS_CONTROL_WHILE", "GBS_CONTROL_FOREACH",
   "GBS_CONTROL_IN"]

def assignmentNames : List String :=
  ["GBS_ASSIGN_LET"]

/-- Operators that are spelled as words; `&&` and `||` never need translating. -/
def operatorNames : List String :=
  ["GBS_OPERATOR_NOT", "GBS_OPERATOR_DIV", "GBS_OPERATOR_MOD"]

def typeNames : List String :=
  ["GBS_TYPE_COLOR", "GBS_TYPE_DIR", "GBS_TYPE_NUMBER", "GBS_TYPE_BOOL", "GBS_TYPE_STRING",
   "GBS_TYPE_TUPLE", "GBS_TYPE_LIST", "GBS_TYPE_VARIANT", "GBS_TYPE_RECORD", "GBS_TYPE_EVENT"]

/-- Built-in values: colours, directions, truth values and events. -/
def valueNames : List String :=
  ["GBS_COLOR_BLUE", "GBS_COLOR_BLACK", "GBS_COLOR_RED", "GBS_COLOR_GREEN", "GBS_DIR_NORTH",
   "GBS_DIR_EAST", "GBS_DIR_SOUTH", "GBS_DIR_WEST", "GBS_BOOL_TRUE", "GBS_BOOL_FALSE",
   "GBS_EVENT_INIT", "GBS_EVENT_TIMEOUT"]

def commandNames : List String :=
  ["GBS_COMMAND_GRAB", "GBS_COMMAND_DROP", "GBS_COMMAND_MOVE", "GBS_COMMAND_MOVETOEDGE",
   "GBS_COMMAND_CLEANBOARD"]

def expressionNames : List String :=
  ["GBS_EXPRESSION_NUMSTONES", "GBS_EXPRESSION_HASSTONES", "GBS_EXPRESSION_CANMOVE",
   "GBS_EXPRESSION_NEXT", "GBS_EXPRESSION_PREV", "GBS_EXPRESSION_OPPOSITE",
   "GBS_EXPRESSION_ISEMPTY", "GBS_EXPRESSION_HEAD", "GBS_EXPRESSION_TAIL",
   "GBS_EXPRESSION_LAST", "GBS_EXPRESSION_INIT", "GBS_EXPRESSION_MINCOLOR",
   "GBS_EXPRESSION_MAXCOLOR", "GBS_EXPRESSION_MINDIR", "GBS_EXPRESSION_MAXDIR",
   "GBS_EXPRESSION_MINBOOL", "GBS_EXPRESSION_MAXBOOL"]

/-- Deliberate failures and assertions. -/
def errorNames : List String :=
  ["GBS_ERROR_COMMAND_BOOM", "GBS_ERROR_EXPRESSION_BOOM", "GBS_ERROR_TYPECHECK"]

/-- All token names, group by group. -/
def names : List String :=
  definitionNames ++ controlNames ++ assignmentNames ++ operatorNames ++ typeNames ++ valueNames ++
    commandNames ++ expressionNames ++ errorNames

def isName (word : String) : Bool := names.contains word

end Vernacular.Token
