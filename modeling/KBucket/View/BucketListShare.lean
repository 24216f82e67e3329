import KBucket.View.BucketListView
import KBucket.View.WriteDetailPhoto

/-!
# `BucketListView.swift`: the answer to a share

The screen of achieved buckets has the same handler as the detail screen, and it reads the answer.
What it would do with its messages is commented out, so they are kept as they are sent.
-/

namespace KBucket

structure BucketListShare where
  mDataList : List PostData
  mShareIdx : Int := -1
  mImageIdx : Int := -1
  messages : List (WriteDetailPhoto.Message × String) := []

namespace BucketListShare

def handleMessage (v : BucketListShare) (what : WriteDetailPhoto.Message) (obj : String) :
    BucketListShare :=
  { v with messages := v.messages ++ [(what, obj)] }

/-- The answer to a share that did not fail. -/
def onAnswer [Platform] (v : BucketListShare) (data : Option Json) : Except Trap BucketListShare :=
  match data with
  | some (.obj fields) => do
    let isValid ← Json.asBool (fields.lookup "isValid")
    let mImageIdx ← Json.asInt (fields.lookup "idx")
    let v := { v with mImageIdx }
    if isValid then
      let postData ← arrayGet v.mDataList v.mShareIdx
      if postData.mImageName.length > 0 then return v.handleMessage .UPLOAD_IMAGE ""
      else return v.handleMessage .TOAST_MASSEGE "write_bucekt_success_string"
    else return v
  | _ => return v

def onHttpReceive [Platform] (v : BucketListShare) (type actionId : Int) (data : Option Json) :
    Except Trap BucketListShare :=
  if actionId = ConstHTTP.INSERT_BUCKET then
    if type = ConstHTTP.HTTP_FAIL then
      return v.handleMessage .TOAST_MASSEGE "write_bucekt_fail_string"
    else v.onAnswer data
  else if actionId = ConstHTTP.INSERT_IMAGE then
    if type = ConstHTTP.HTTP_FAIL then
      return v.handleMessage .TOAST_MASSEGE "upload_image_fail_string"
    else return v.handleMessage .TOAST_MASSEGE "write_bucekt_success_string"
  else return v

end BucketListShare
end KBucket
