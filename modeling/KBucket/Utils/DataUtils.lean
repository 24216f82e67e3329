import KBucket.Foundation

/-!
# `DataUtils.swift`

The files of the documents directory. `save` answers with the name of the file whether the write
went through or not: `try?` passes over its error.
-/

namespace KBucket

/-- What UIKit does with images. -/
structure ImageCodec (Image : Type) where
  /-- `image.jpegData(compressionQuality: 1.0)`. -/
  jpegData : Image → Option Data
  /-- `image.pngData()`. -/
  pngData : Image → Option Data
  /-- `UIImage(data:)`. -/
  image : Data → Option Image

/-- Images that are their own data. -/
def plainCodec : ImageCodec Data where
  jpegData image := some image
  pngData image := some image
  image data := some data

/-- The files of a directory, by name. -/
abbrev Documents := String → Option Data

def Documents.write (documents : Documents) (fileName : String) (data : Data) : Documents :=
  fun name => if name = fileName then some data else documents name

namespace DataUtils

variable {Image : Type}

/-- `isWritten` is whether the write goes through. -/
def save (codec : ImageCodec Image) (documents : Documents) (image : Image) (fileName : String)
    (isWritten : Bool) : Option String × Documents :=
  match codec.jpegData image with
  | some imageData =>
    (some fileName, if isWritten then documents.write fileName imageData else documents)
  | none => (none, documents)

def load (codec : ImageCodec Image) (documents : Documents) (fileName : String) : Option Image :=
  (documents fileName).bind codec.image

end DataUtils
end KBucket
