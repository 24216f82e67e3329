import KBucket.Lib.WeekYear
import KBucket.Utils.DateUtils
import KBucket.View.WriteDetailView

/-!
# The date pickers of `WriteDetailView.swift`

Either field of the form has a picker, which tells its handler the instant that it holds. The
handlers write it in the zone of Greenwich, whatever the zone of the device, and with one letter
of difference between their patterns. Weeks are those of the device's locale.
-/

namespace KBucket

structure UIDatePicker where
  date : Rat

structure DateFormatter where
  dateFormat : String
  timeZone : TimeZone
  weekRule : Lib.WeekRule

/-- `string(from: date)`. -/
def DateFormatter.string (formatter : DateFormatter) (date : Rat) : String :=
  Lib.DateFormat.formatIn formatter.weekRule formatter.dateFormat
    (.ofSecond (formatter.timeZone.clock date))

namespace WriteDetailView

def datePickerValueChanged (weekRule : Lib.WeekRule) (v : WriteDetailView)
    (sender : UIDatePicker) : WriteDetailView :=
  let dateFormatter : DateFormatter :=
    { dateFormat := "yy-MM-dd", timeZone := .fixed 0, weekRule }
  { v with etDate := dateFormatter.string sender.date }

def datePickerValueChanged2 (weekRule : Lib.WeekRule) (v : WriteDetailView)
    (sender : UIDatePicker) : WriteDetailView :=
  let dateFormatter : DateFormatter :=
    { dateFormat := "YY-MM-dd", timeZone := .fixed 0, weekRule }
  { v with etCompleteDate := dateFormatter.string sender.date }

end WriteDetailView
end KBucket
