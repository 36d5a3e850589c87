/-!
# Causes of failures

A failure is explained by a list of causes, each of which is the reason for the one before it.
Said in one text they stand in that order with a colon between them.
-/

namespace Chargeback

/-- What led to a failure, from the outside in. -/
abbrev Causes := List String

/-- The causes in one text. -/
def Causes.text (causes : Causes) : String := ": ".intercalate causes

end Chargeback
