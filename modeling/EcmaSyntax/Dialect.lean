/-! The two accepted dialects. -/

namespace EcmaSyntax

/-- `js` has `const` declarations; in `ecma`, the fifth edition of the standard alone, `const` is
a reserved word without a use. -/
inductive Dialect where
  | js
  | ecma
  deriving DecidableEq, Repr, Inhabited

/-- The written name of a dialect. -/
def Dialect.name : Dialect → String
  | js => "Js"
  | ecma => "Ecma"

end EcmaSyntax
