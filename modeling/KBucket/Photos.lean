import KBucket.App
import KBucket.View.WriteDetailPhoto

/-!
# The screens and the files of photos

The app together with the documents directory. A photo enters by the image picker of the detail
screen, which writes its file at once; the name is in the store only after a Save. So an action
of the user is either one of `App`, the choice of a photo excepted, or such a choice.

Whether a file can be written comes with the choice, since nothing in the app decides it. No action
deletes a file, so the documents only grow.
-/

namespace KBucket

structure Photos where
  app : App
  documents : Documents

namespace Photos

variable {Image : Type}

/-- `isWritten` is whether the file of the photo can be written. -/
inductive Event (Image : Type) where
  | act (today : String) (event : App.Event)
      (control : ∀ name, event ≠ .detail (.imagePicked name))
  | pick (photoDate : Rat) (isWritten : Bool) (chosenImage : Image)

def step [Platform] (nfc : String → String) (codec : ImageCodec Image) (zone : TimeZone)
    (s : Photos) : Event Image → Except Trap Photos
  | .act today event _ => do
    let app ← s.app.step nfc (today, event)
    return { s with app }
  | .pick photoDate isWritten chosenImage =>
    match s.app with
    | .detail v => do
      let (screen, documents) ← WriteDetailPhoto.imagePickerController codec zone photoDate
        isWritten s.documents { form := v } chosenImage
      return { app := .detail screen.form, documents }
    | _ => .ok s

end Photos
end KBucket
