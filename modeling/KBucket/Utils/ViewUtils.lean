import KBucket.Bucket
import KBucket.Utils.ContextUtils

/-!
# What a screen shares and what it shows next

The screens share the `Device`: the default Realm and the user defaults. A screen that presents
another one hands over the public properties that it sets on it; those are the fields of
`Presented`.
-/

namespace KBucket

structure Device where
  realm : Realm
  defaults : UserDefaults

/-- A screen as it is presented. -/
inductive Presented where
  | view (strView : String)
  | main (mWidgetSendData : String)
  | writeDetail (CONTENTS BACK : String)
  deriving DecidableEq, Repr

end KBucket
