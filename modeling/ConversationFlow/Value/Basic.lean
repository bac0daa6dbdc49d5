import ConversationFlow.Text.Basic

/-!
# Values

Whole numbers that are read from a text must fit in a word of 32 or 64 bits. Any value may be
refused; why it is, is told in words.
-/

namespace ConversationFlow

/-! ## Widths -/

/-- How many numbers a word of so many bits can hold: those below it fit. -/
def wordSize (bits : Nat) : Nat := Nat.pow 2 bits

/-! ## Refused values -/

/-- Why a value is refused. -/
inductive ValueError where
  | percentExpected
  | notNumber
  | negativeNumber
  | overHundredPercent
  | countExpected
  | countZero
  | durationExpected
  | unknownUnit (unit : Text)
  | flagExpected
  | unterminatedQuote
  | sessionModeExpected
  | limitPolicyExpected
  | validationModeExpected
  | onErrorExpected
  | outputPolicyExpected
  | renderModeExpected
  | assignmentExpected
  | notAssignment (word : Text)
  | assignmentInstead (word : Text)
  | arrowExpected
  | arrowSideMissing
  | coverageExpected
  | unknownOperator (word : Text)
  | thresholdNotNumber (word : Text)
  | queryExpected
deriving DecidableEq

def ValueError.message : ValueError → Text
  | .percentExpected => "expected a percentage"
  | .notNumber => "not a number"
  | .negativeNumber => "must be a non-negative number"
  | .overHundredPercent => "must not exceed 100%"
  | .countExpected => "expected a non-negative integer"
  | .countZero => "must be at least 1"
  | .durationExpected => "expected a duration like 60, 60s, 2m or 500ms"
  | .unknownUnit u => "unknown duration unit '" ++ u ++ "'"
  | .flagExpected => "expected true/false or yes/no"
  | .unterminatedQuote => "unterminated quote"
  | .sessionModeExpected => "expected accumulate, compact or fresh"
  | .limitPolicyExpected => "expected compact or stop"
  | .validationModeExpected => "expected strict or lenient"
  | .onErrorExpected => "expected stop or continue"
  | .outputPolicyExpected => "expected always, on-error or never"
  | .renderModeExpected => "expected plan or full"
  | .assignmentExpected => "expected KEY=VALUE"
  | .notAssignment w => "'" ++ w ++ "' is not KEY=VALUE"
  | .assignmentInstead w => "expected KEY=VALUE, got '" ++ w ++ "'"
  | .arrowExpected => "expected 'FROM -> TO'"
  | .arrowSideMissing => "both sides of the arrow are required"
  | .coverageExpected => "expected 'METRIC OP THRESHOLD'"
  | .unknownOperator w => "unknown operator '" ++ w ++ "' (use >=, <=, >, <, ==)"
  | .thresholdNotNumber w => "threshold '" ++ w ++ "' is not a number"
  | .queryExpected => "expected a query"

end ConversationFlow
