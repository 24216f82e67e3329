import KBucket.View.AddBucketView
import KBucket.View.BucketListView
import KBucket.View.WriteDetailView
import KBucket.View.WriteView

/-!
# The screens that work on the store

One screen is in front at a time, and it has the device. Screens are loaded anew each time they
are presented, so what one of them shows was read from the store when it came to the front.
`step` is one action of the user; an action that the screen in front has no control for does
nothing.

Rows are told by their numbers here, as the cells tell them, and a number need not be one of a row
on display: that it is one is the business of `TouchScreen`. `today` comes with each action, because
a form is filled with the day on which it is opened. The screens of the server have models of their
own (`RankScreen`, `ShareScreen`, `NoticeScreen`, `CommentThread`), and the main screen is a place
to start from; what else it does is in `Shell`.
-/

namespace KBucket

inductive App where
  | main (device : Device)
  | write (v : WriteView)
  | detail (v : WriteDetailView)
  | bucketList (v : BucketListView)
  | addBucket (v : AddBucketView)
  | dbMgr (device : Device)

namespace App

def device : App → Device
  | .main device | .dbMgr device => device
  | .write v => v.device
  | .detail v => v.device
  | .bucketList v => v.device
  | .addBucket v => v.device

inductive Event where
  | openWrite
  | openBucketList
  | openAddBucket
  | openDBMgr
  | write (event : WriteView.Event)
  | rowMod (data : String)
  | detail (event : WriteDetailView.Event)
  | rowDetail (data : String)
  | rowAdd (data : String)
  | rowRemove (data : String)
  | reset
  | back
  deriving DecidableEq, Repr

/-- The screen that a presented view is, on the device as it is then. The to-do screen is only
    presented from the main screen. -/
def present (today : String) (device : Device) : Presented → Except Trap App
  | .writeDetail CONTENTS BACK =>
    (WriteDetailView.viewDidLoad today device CONTENTS BACK).map .detail
  | .view strView =>
    if strView = ContextUtils.VIEW_COMPLETE_LIST then .ok (.bucketList (.viewDidLoad device))
    else .ok (.main device)
  | .main _ => .ok (.main device)

/-- The screen after a handler: the one it presented, if any. -/
def follow (today : String) (app : App) (presented : List Presented) : Except Trap App :=
  match presented.getLast? with
  | some next => present today app.device next
  | none => .ok app

/-- One action, on a day that is written `today`. -/
def step [Platform] (nfc : String → String) (app : App) : String × Event → Except Trap App
  | (today, event) =>
    match app, event with
    | .main device, .openWrite => .ok (.write (.viewDidLoad nfc device))
    | .main device, .openBucketList => .ok (.bucketList (.viewDidLoad device))
    | .main device, .openAddBucket => .ok (.addBucket { device })
    | .main device, .openDBMgr => .ok (.dbMgr device)
    | .write v, .write event => (v.step nfc event).map .write
    | .write v, .rowMod data => do
      let v ← v.receiveEventFromViewItem 0 data
      follow today (.write v) v.presented
    | .detail v, .detail event => do
      let v ← v.step event
      follow today (.detail v) v.presented
    | .bucketList v, .rowDetail data => do
      let v ← v.receiveEventFromViewItem 0 data
      follow today (.bucketList v) v.presented
    | .addBucket v, .rowAdd data => (v.receiveEventFromViewItem today 0 data).map .addBucket
    | .addBucket v, .rowRemove data => (v.receiveEventFromViewItem today 1 data).map .addBucket
    | .dbMgr device, .reset =>
      .ok (.dbMgr { device with realm := SQLQuery.DeleteBucketContents device.realm })
    | .write v, .back => .ok (.main v.device)
    | .bucketList v, .back => .ok (.main v.device)
    | .addBucket v, .back => .ok (.main v.device)
    | .dbMgr device, .back => .ok (.main device)
    | app, _ => .ok app

end App
end KBucket
