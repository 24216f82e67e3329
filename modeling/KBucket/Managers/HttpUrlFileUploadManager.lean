import KBucket.Lib.Base64
import KBucket.Managers.HttpUrlTaskManager

/-!
# `HttpUrlFileUploadManager.swift`

The upload of an image, and the body that the file of the same name in Java writes, from which
this one was ported.
-/

namespace KBucket

structure HttpUrlFileUploadManager where
  mURl : String
  isPost : Bool
  mId : Int

namespace HttpUrlFileUploadManager

def lineEnd : String := "\r\n"
def twoHyphens : String := "--"
def boundary : String := "*****"
def mimetype : String := "image/jpg"

def contentType : String := "multipart/form-data; boundary=" ++ boundary

/-- `image.base64EncodedString(options:)` without options. -/
def base64EncodedString (image : Data) : String := String.ofList (Lib.Base64.encode image)

def postString (fileName : String) (image : Data) : String :=
  twoHyphens ++ boundary ++ lineEnd ++
    ("Content-Disposition: form-data; name=\"uploadFile\";filename=\"" ++ fileName ++ "\"" ++
      lineEnd) ++
    ("Content-Type: " ++ mimetype ++ "\r\n\r\n" ++ lineEnd) ++
    base64EncodedString image ++ lineEnd

/-- The path of the file is passed and not used. -/
def request (manager : HttpUrlFileUploadManager) (_filePath setValue reqValue fileName : String)
    (image : Data) : URLRequest :=
  let request : URLRequest := { url := manager.mURl, httpMethod := "POST" }
  let request := request.setValue contentType "Content-Type"
  -- The name of the field is passed as its value, and the value as its name.
  let request := request.setValue setValue reqValue
  let request := request.setValue fileName fileName
  { request with httpBody := utf8 (postString fileName image) }

def completionHandler (manager : HttpUrlFileUploadManager) (data : Option Data)
    (response : Option URLResponse) : Except Trap (List Callback) := do
  if response = none then return []
  else if !isOk response then
    let data ← unwrap data
    return [{ type := ConstHTTP.HTTP_FAIL, actionId := manager.mId, data }]
  else
    let data ← unwrap data
    return [{ type := ConstHTTP.HTTP_OK, actionId := manager.mId, data }]

def actionTask (manager : HttpUrlFileUploadManager)
    (filePath setValue reqValue fileName : String) (image : Data) : DataTask where
  request := manager.request filePath setValue reqValue fileName image
  completionHandler := manager.completionHandler

/-! ## The Java original -/

/-- `dos.writeBytes(text)`: the low byte of each character. -/
def writeBytes (text : String) : Data := text.toList.map fun c => c.toNat.toUInt8

def writtenBody (fileName : String) (image : Data) : Data :=
  writeBytes (twoHyphens ++ boundary ++ lineEnd) ++
    writeBytes ("Content-Disposition: form-data; name=\"uploadFile\";filename=\"" ++ fileName ++
      "\"" ++ lineEnd) ++
    writeBytes lineEnd ++ image ++ writeBytes lineEnd ++
    writeBytes (twoHyphens ++ boundary ++ twoHyphens ++ lineEnd)

/-- The request of `doInBackground`. -/
def doInBackground (manager : HttpUrlFileUploadManager)
    (setValue reqValue fileName : String) (image : Data) : URLRequest :=
  let conn : URLRequest := { url := manager.mURl, httpMethod := "POST" }
  let conn := conn.setValue "Keep-Alive" "Connection"
  let conn := conn.setValue ("multipart/form-data;boundary=" ++ boundary) "Content-Type"
  let conn := conn.setValue reqValue setValue
  let conn := conn.setValue fileName "filename"
  { conn with httpBody := writtenBody fileName image }

end HttpUrlFileUploadManager
end KBucket
