import ScriptBridge.Decimal.Style

/-!
# Numbers of JSON texts

A number keeps a decimal point or has an exponent, so that it reads back as a floating point
number. What is neither an integer nor a fraction has no JSON form and becomes `null`.
-/

namespace ScriptBridge.Json

/-- Leading exponents from -5 to 15 are positional, integers end in `.0`, and ties go to the even
digit. -/
def numberStyle : Decimal.Style where
  positionalFrom := some (-5)
  positionalBelow := some 16
  keepsPoint := true
  signsZero := true
  search := .both
  tie := .toEven

end ScriptBridge.Json
