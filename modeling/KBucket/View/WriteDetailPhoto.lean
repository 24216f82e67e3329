import KBucket.Json
import KBucket.Managers.HttpUrlFileUploadManager
import KBucket.Utils.DataUtils
import KBucket.Utils.DateUtils
import KBucket.Utils.StringUtils
import KBucket.View.WriteDetailView

/-!
# `WriteDetailView.swift`: the photo and the Share button

The screen here is its form (`WriteDetailView`), the photo that it shows, the tasks that its
handlers start and the messages that they show, each by its key of the localized strings. The
handlers that neither touch nor read the photo are those of the form.
-/

namespace KBucket

structure WriteDetailPhoto (Image : Type) where
  form : WriteDetailView
  ivImage : Option Image := none
  mDate : String := ""
  mImageIdx : Int := -1
  started : List DataTask := []
  toasts : List String := []

namespace WriteDetailPhoto

variable {Image : Type}

def showToast (v : WriteDetailPhoto Image) (message : String) : WriteDetailPhoto Image :=
  { v with toasts := v.toasts ++ [message] }

def start (v : WriteDetailPhoto Image) (task : DataTask) : WriteDetailPhoto Image :=
  { v with started := v.started ++ [task] }

/-- `photoDate` is when the photo was picked, and `isWritten` whether its file could be written. -/
def imagePickerController (codec : ImageCodec Image) (zone : TimeZone) (photoDate : Rat)
    (isWritten : Bool) (documents : Documents) (v : WriteDetailPhoto Image) (chosenImage : Image) :
    Except Trap (WriteDetailPhoto Image × Documents) := do
  let v := { v with ivImage := some chosenImage }
  let fileName := DateUtils.getStringDateFormat zone photoDate "yyyyMMdd_hhmmss"
  let (tempImageName, documents) := DataUtils.save codec documents chosenImage fileName isWritten
  let tempImageName ← unwrap tempImageName
  let form ← v.form.step (.imagePicked tempImageName)
  return ({ v with form }, documents)

/-- The photo is forgotten, and only hidden from view. -/
def btRemoveImage (v : WriteDetailPhoto Image) : Except Trap (WriteDetailPhoto Image) := do
  let form ← v.form.step .btRemoveImage
  return { v with form }

/-! ## Share -/

def shareBucketImage (hash : HashOrder) (v : WriteDetailPhoto Image) : Dictionary :=
  Bucket.toDictionary hash {
    mNickName := UserDefault.read v.form.device.defaults ContextUtils.KEY_USER_NICKNAME
    mContent := v.form.mContents
    mImageURl := v.form.mPhotoPath
    mCompleteDate := v.mDate
    mCategoryCode := 9 }

/-- `SELECT_BUCKET_CATEGORY` is never sent. -/
inductive Message where
  | TOAST_MASSEGE
  | UPLOAD_IMAGE
  | UPLOAD_BUCKET
  deriving DecidableEq, Repr

/-- The task that shares the bucket. -/
def uploadBucket (data : String) : DataTask :=
  HttpUrlTaskManager.actionTaskWithData
    ⟨ContextUtils.KBUCKET_INSERT_BUCKET_URL, true, ConstHTTP.INSERT_BUCKET⟩ data

/-- The task that uploads its image. -/
def uploadImage (photoPath reqValue fileName : String) (imageData : Data) : DataTask :=
  HttpUrlFileUploadManager.actionTask
    ⟨ContextUtils.KBUCKET_UPLOAD_IMAGE_URL, true, ConstHTTP.INSERT_IMAGE⟩ photoPath "idx" reqValue
    (fileName ++ ".jpg") imageData

def handleMessage (hash : HashOrder) (codec : ImageCodec Image) (zone : TimeZone)
    (todayDate : Rat) (v : WriteDetailPhoto Image) (what : Message) (obj : String) :
    Except Trap (WriteDetailPhoto Image) :=
  match what with
  | .TOAST_MASSEGE => return v.showToast obj
  | .UPLOAD_IMAGE => do
    let photoPath := v.form.mPhotoPath
    if photoPath.length > 0 then
      let fileName := DateUtils.getStringDateFormat zone todayDate "yyyyMMdd_hhmmss"
      let image ← unwrap v.ivImage
      let imageData ← unwrap (codec.pngData image)
      return v.start (uploadImage photoPath (toString v.mImageIdx) fileName imageData)
    else return v
  | .UPLOAD_BUCKET => do
    let data ← StringUtils.getHTTPPostSendData (v.shareBucketImage hash)
    return v.start (uploadBucket data)

def btShare (hash : HashOrder) (codec : ImageCodec Image) (zone : TimeZone)
    (todayDate : Rat) (v : WriteDetailPhoto Image) : Except Trap (WriteDetailPhoto Image) :=
  v.handleMessage hash codec zone todayDate .UPLOAD_BUCKET ""

/-- The answer to a share is parsed, and nothing of it is looked at: the line that would read
    `idx` is commented out. -/
def onHttpReceive (hash : HashOrder) (codec : ImageCodec Image) (zone : TimeZone)
    (todayDate : Rat) (v : WriteDetailPhoto Image) (type actionId : Int) (_data : Data) :
    Except Trap (WriteDetailPhoto Image) :=
  if actionId = ConstHTTP.INSERT_BUCKET then
    if type = ConstHTTP.HTTP_FAIL then
      v.handleMessage hash codec zone todayDate .TOAST_MASSEGE "write_bucekt_fail_string"
    -- Any other type is taken for success, whatever the answer says.
    else if v.form.mPhotoPath.length > 0 then
      v.handleMessage hash codec zone todayDate .UPLOAD_IMAGE ""
    else v.handleMessage hash codec zone todayDate .TOAST_MASSEGE "write_bucekt_success_string"
  else if actionId = ConstHTTP.INSERT_IMAGE then
    if type = ConstHTTP.HTTP_FAIL then
      v.handleMessage hash codec zone todayDate .TOAST_MASSEGE "upload_image_fail_string"
    else v.handleMessage hash codec zone todayDate .TOAST_MASSEGE "write_bucekt_success_string"
  else return v

end WriteDetailPhoto
end KBucket
