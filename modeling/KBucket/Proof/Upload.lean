import KBucket.Lib.Multipart
import KBucket.Managers.HttpUrlFileUploadManager
import KBucket.Utils.ContextUtils

/-!
# What an upload carries

The body has no closing delimiter, so no server finds a part in it, whatever the image and the
name of its file. The Java original closes its body, and what it writes is read back.

The negative result needs the name of the file to stay inside its quotes, and no other
hypothesis: picture, header field and parameters are arbitrary. Whichever boundary a server reads
the body with, it finds no delimiter that closes it.
-/

namespace KBucket

open Lib Lib.Multipart

/-- The content is the image, under the encoding that its part declares. -/
def Encodes (encoding : Option Data) (image content : Data) : Prop :=
  if encoding = some (utf8 "base64") then content = utf8 (String.ofList (Base64.encode image))
  else content = image

/-- The body holds one part, the file `uploadFile` of this name, with the image. -/
def Uploads (request : URLRequest) (fileName image : Data) : Prop :=
  ∃ contentType declared part disposition, request.value "Content-Type" = some contentType ∧
    parameter (utf8 "boundary") (utf8 contentType) = some declared ∧
    parse declared request.httpBody = some [part] ∧
    field (utf8 "Content-Disposition") part.headers = some disposition ∧
    parameter (utf8 "name") disposition = some (utf8 "uploadFile") ∧
    parameter (utf8 "filename") disposition = some fileName ∧
    Encodes (field (utf8 "Content-Transfer-Encoding") part.headers) image part.content

namespace HttpUrlFileUploadManager

/-- A name that a quoted parameter can hold. -/
def Plain (fileName : String) : Prop :=
  '"' ∉ fileName.toList ∧ '\r' ∉ fileName.toList ∧ '\n' ∉ fileName.toList

def disposition (fileName : String) : String :=
  "Content-Disposition: form-data; name=\"uploadFile\";filename=\"" ++ fileName ++ "\""

theorem notMem_base64 {image : Data} {c : Char} (hc : c ∉ Base64.alphabet) (heq : c ≠ '=') :
    c ∉ (base64EncodedString image).toList := by
  intro hmem
  rw [base64EncodedString, String.toList_ofList] at hmem
  rcases Base64.mem_encode hmem with h | h
  · exact hc h
  · exact heq h

theorem notMem_disposition {fileName : String} (hfile : Plain fileName) :
    cr ∉ utf8 (disposition fileName) := by
  refine notMem_utf8 (c := '\r') (by decide) (by decide) ?_
  have hfront : '\r' ∉
      "Content-Disposition: form-data; name=\"uploadFile\";filename=\"".toList := by decide
  have hback : '\r' ∉ "\"".toList := by decide
  unfold disposition
  rw [String.toList_append, String.toList_append, List.mem_append, List.mem_append, not_or, not_or]
  exact ⟨⟨hfront, hfile.2.1⟩, hback⟩

theorem notMem_image (image : Data) {b : UInt8} {c : Char} (hb : b.toNat = c.toNat)
    (hascii : c.toNat < 128) (hc : c ∉ Base64.alphabet) (heq : c ≠ '=') :
    b ∉ utf8 (base64EncodedString image) :=
  notMem_utf8 hb hascii (notMem_base64 hc heq)

/-- The body, line by line. -/
theorem lines_postString {fileName : String} (hfile : Plain fileName) (image : Data) :
    lines (utf8 (postString fileName image)) =
      (hyphens ++ utf8 boundary) ::
        ([utf8 (disposition fileName), utf8 ("Content-Type: " ++ mimetype)] ++
          [] :: [[], utf8 (base64EncodedString image), []]) := by
  have hend : utf8 lineEnd = crlf := by decide
  have hblank : utf8 "\r\n\r\n" = crlf ++ crlf := by decide
  have hbody : utf8 (postString fileName image) =
      utf8 (twoHyphens ++ boundary) ++ crlf ++ (utf8 (disposition fileName) ++ crlf ++
        (utf8 ("Content-Type: " ++ mimetype) ++ crlf ++ ([] ++ crlf ++ ([] ++ crlf ++
          (utf8 (base64EncodedString image) ++ crlf ++ []))))) := by
    unfold postString disposition
    simp only [utf8_append, hend, hblank, List.append_assoc, List.nil_append, List.append_nil]
  have hdelimiter : cr ∉ utf8 (twoHyphens ++ boundary) := by decide
  have htype : cr ∉ utf8 ("Content-Type: " ++ mimetype) := by decide
  have himage : cr ∉ utf8 (base64EncodedString image) :=
    notMem_image image (c := '\r') (by decide) (by decide) (by decide) (by decide)
  have hhyphens : utf8 twoHyphens = hyphens := by decide
  simp only [hbody, lines_append_crlf, lines_eq_singleton hdelimiter,
    lines_eq_singleton (notMem_disposition hfile), lines_eq_singleton htype,
    lines_eq_singleton himage]
  rw [utf8_append twoHyphens, hhyphens]
  rfl

/-- No line after the first begins with a hyphen, where a delimiter does. -/
theorem parse_postString {fileName : String} (hfile : Plain fileName) (image : Data)
    (declared : Data) : parse declared (utf8 (postString fileName image)) = none := by
  by_cases hboundary : utf8 boundary = declared
  · subst hboundary
    have hhyphen : (0x2D : UInt8) ∉ utf8 (base64EncodedString image) :=
      notMem_image image (c := '-') (by decide) (by decide) (by decide) (by decide)
    -- The image stands among the headers of the part, and has no hyphen to close it with.
    have himage : ∀ rest : Data, utf8 (base64EncodedString image) ≠ hyphens ++ rest := by
      intro rest heq
      rw [heq] at hhyphen
      exact hhyphen (by simp [hyphens])
    refine parse_eq_none ?_ ?_ (lines_postString hfile image)
    · intro line hline
      simp only [List.mem_cons, List.not_mem_nil, or_false] at hline
      rcases hline with rfl | rfl
      · have hfront :
            utf8 "Content-Disposition: form-data; name=\"uploadFile\";filename=\"" ≠ [] := by
          decide
        unfold disposition
        rw [utf8_append, utf8_append, List.append_assoc]
        exact List.append_ne_nil_of_left_ne_nil hfront _
      · decide
    · intro line hline
      simp only [List.mem_cons, List.not_mem_nil, or_false] at hline
      rcases hline with rfl | rfl | rfl
      · exact ⟨by simp [hyphens], by simp [hyphens]⟩
      · exact ⟨himage _, by rw [List.append_assoc]; exact himage _⟩
      · exact ⟨by simp [hyphens], by simp [hyphens]⟩
  · -- A body that does not start with the boundary that its header tells.
    rw [parse, lines_postString hfile image]
    simp only [List.append_cancel_left_eq, hboundary, if_false]

theorem request_httpBody (manager : HttpUrlFileUploadManager)
    (filePath setValue reqValue fileName : String) (image : Data) :
    (manager.request filePath setValue reqValue fileName image).httpBody =
      utf8 (postString fileName image) := by
  unfold request
  with_reducible rfl

/-- **No upload carries its image**: no server that goes by the format finds a part in it.

    `hfile` keeps the name of the file inside its quotes; the pictures and the header field are
    arbitrary, and so is the boundary that the server reads the body with. -/
theorem request_not_uploads (manager : HttpUrlFileUploadManager)
    (filePath setValue reqValue fileName : String) (image : Data) (hfile : Plain fileName) :
    ¬ Uploads (manager.request filePath setValue reqValue fileName image) (utf8 fileName)
      image := by
  intro h
  obtain ⟨contentType, declared, part, disposition, -, -, hparse, -⟩ := h
  rw [request_httpBody, parse_postString hfile image declared] at hparse
  cases hparse

theorem request_not_uploads_photo :
    ¬ Uploads (request ⟨ContextUtils.KBUCKET_UPLOAD_IMAGE_URL, true, ConstHTTP.INSERT_IMAGE⟩
      "20240101_010101" "idx" "-1" "20240101_010101.jpg" [0xFF, 0xD8])
      (utf8 "20240101_010101.jpg") [0xFF, 0xD8] :=
  request_not_uploads ⟨ContextUtils.KBUCKET_UPLOAD_IMAGE_URL, true, ConstHTTP.INSERT_IMAGE⟩
    "20240101_010101" "idx" "-1" "20240101_010101.jpg" [0xFF, 0xD8] (by unfold Plain; decide)

/-- A JPEG of two bytes: the body ends where its content should. -/
theorem parse_photo : parse (utf8 boundary)
    (utf8 (postString "20240101_010101.jpg" [0xFF, 0xD8])) = none :=
  parse_postString (by unfold Plain; decide) _ _

/-! ## The Java original -/

@[simp] theorem writeBytes_append (a b : String) :
    writeBytes (a ++ b) = writeBytes a ++ writeBytes b := by
  simp [writeBytes]

theorem notMem_writeBytes {text : String} {b : UInt8} {c : Char} (hb : b.toNat = c.toNat)
    (hascii : ∀ d ∈ text.toList, d.toNat < 128) (h : c ∉ text.toList) : b ∉ writeBytes text := by
  intro hmem
  obtain ⟨d, hd, hbyte⟩ := List.mem_map.mp hmem
  have hlt := hascii d hd
  have heq : d.toNat = c.toNat := by
    rw [← hb, ← hbyte, Nat.toUInt8_eq, UInt8.toNat_ofNat', Nat.mod_eq_of_lt (by omega)]
  exact h (Char.toNat_inj.mp heq ▸ hd)

/-- The value of the header of the part. -/
def dispositionValue (fileName : Data) : Data :=
  writeBytes "form-data; name=\"uploadFile\";filename=\"" ++ fileName ++ [quote]

theorem parameters_dispositionValue {fileName : Data} (hquote : quote ∉ fileName) (fuel : Nat) :
    parameters (fuel + 2) ((dispositionValue fileName).dropWhile (· ≠ semicolon)) =
      (utf8 "name", utf8 "uploadFile") :: (utf8 "filename", fileName) :: parameters fuel [] := by
  have hne : ∀ b ∈ fileName, decide (b ≠ quote) = true := by
    intro b hb
    rw [decide_eq_true_eq]
    rintro rfl
    exact hquote hb
  have htake : (fileName ++ [quote]).takeWhile (· ≠ quote) = fileName := by
    rw [List.takeWhile_append_of_pos hne]
    simp
  have hdrop : ((fileName ++ [quote]).dropWhile (· ≠ quote)).drop 1 = [] := by
    rw [List.dropWhile_append_of_pos hne]
    simp
  show (utf8 "name", utf8 "uploadFile") ::
    (utf8 "filename", (fileName ++ [quote]).takeWhile (· ≠ quote)) ::
      parameters fuel (((fileName ++ [quote]).dropWhile (· ≠ quote)).drop 1) = _
  rw [htake, hdrop]

def dispositionLine (fileName : Data) : Data :=
  utf8 "Content-Disposition: " ++ dispositionValue fileName

theorem field_dispositionLine (fileName : Data) :
    field (utf8 "Content-Disposition") [dispositionLine fileName] =
        some (dispositionValue fileName) ∧
      field (utf8 "Content-Transfer-Encoding") [dispositionLine fileName] = none :=
  ⟨rfl, rfl⟩

theorem lines_writtenBody {fileName : String} (hfile : Plain fileName)
    (hascii : ∀ c ∈ fileName.toList, c.toNat < 128) (image : Data) :
    lines (writtenBody fileName image) =
      (hyphens ++ utf8 boundary) :: ([dispositionLine (writeBytes fileName)] ++
        [] :: (lines image ++ (hyphens ++ utf8 boundary ++ hyphens) :: [[]])) := by
  have hend : writeBytes lineEnd = crlf := by decide
  have hdelimiter : writeBytes twoHyphens ++ writeBytes boundary = hyphens ++ utf8 boundary := by
    decide
  have hclose : writeBytes twoHyphens = hyphens := by decide
  have hquote : writeBytes "\"" = [quote] := by decide
  have hfront : writeBytes "Content-Disposition: form-data; name=\"uploadFile\";filename=\"" =
      utf8 "Content-Disposition: " ++ writeBytes "form-data; name=\"uploadFile\";filename=\"" := by
    decide
  have hbody : writtenBody fileName image = (hyphens ++ utf8 boundary) ++ crlf ++
      (dispositionLine (writeBytes fileName) ++ crlf ++ ([] ++ crlf ++ (image ++ crlf ++
        ((hyphens ++ utf8 boundary ++ hyphens) ++ crlf ++ [])))) := by
    unfold writtenBody dispositionLine dispositionValue
    simp only [writeBytes_append, hend, ← hdelimiter, hclose, hquote, hfront, List.append_assoc,
      List.nil_append, List.append_nil]
  -- No line that the code writes has a break in it; only the image may.
  have hline : cr ∉ dispositionLine (writeBytes fileName) := by
    have hname : cr ∉ writeBytes fileName :=
      notMem_writeBytes (c := '\r') (by decide) hascii hfile.2.1
    have hstart : cr ∉ utf8 "Content-Disposition: " := by decide
    have hmiddle : cr ∉ writeBytes "form-data; name=\"uploadFile\";filename=\"" := by decide
    have hlast : cr ∉ [quote] := by decide
    unfold dispositionLine dispositionValue
    rw [List.mem_append, List.mem_append, List.mem_append, not_or, not_or, not_or]
    exact ⟨hstart, ⟨hmiddle, hname⟩, hlast⟩
  have hfirst : cr ∉ hyphens ++ utf8 boundary := by decide
  have hclosing : cr ∉ hyphens ++ utf8 boundary ++ hyphens := by decide
  simp only [hbody, lines_append_crlf, lines_eq_singleton hfirst, lines_eq_singleton hline,
    lines_eq_singleton hclosing]
  rfl

/-- **What the Java original writes is the image**, unless a line of the image is a delimiter. -/
theorem doInBackground_uploads (manager : HttpUrlFileUploadManager)
    {setValue reqValue fileName : String} {image : Data} (hfile : Plain fileName)
    (hascii : ∀ c ∈ fileName.toList, c.toNat < 128)
    (himage : ∀ line ∈ lines image,
      line ≠ hyphens ++ utf8 boundary ∧ line ≠ hyphens ++ utf8 boundary ++ hyphens)
    (hset : URLRequest.lowercased setValue ≠ URLRequest.lowercased "Content-Type") :
    Uploads (manager.doInBackground setValue reqValue fileName image) (writeBytes fileName)
      image := by
  have hquote : quote ∉ writeBytes fileName :=
    notMem_writeBytes (c := '"') (by decide) hascii hfile.1
  have hname : URLRequest.lowercased "filename" ≠ URLRequest.lowercased "Content-Type" := by
    decide
  have hparameters := parameters_dispositionValue hquote
  obtain ⟨fuel, hfuel⟩ : ∃ k, (dispositionValue (writeBytes fileName)).length = k + 2 :=
    ⟨_, rfl⟩
  refine ⟨"multipart/form-data;boundary=" ++ boundary, utf8 boundary,
    ⟨[dispositionLine (writeBytes fileName)], image⟩, dispositionValue (writeBytes fileName),
    ?_, ?_, ?_, (field_dispositionLine _).1, ?_, ?_, ?_⟩
  · unfold doInBackground
    rw [URLRequest.value_httpBody, URLRequest.value_setValue_of_ne _ _ hname,
      URLRequest.value_setValue_of_ne _ _ hset, URLRequest.value_setValue]
  · decide
  · refine parse_eq_some ?_ himage (lines_writtenBody hfile hascii image)
    intro line hline
    rw [List.mem_singleton.mp hline]
    exact List.append_ne_nil_of_left_ne_nil (by decide) _
  · rw [parameter, hfuel, hparameters]
    rfl
  · rw [parameter, hfuel, hparameters]
    rfl
  · -- No encoding is told, and the image is written as it is.
    rw [(field_dispositionLine _).2, Encodes, if_neg (by simp)]

end HttpUrlFileUploadManager
end KBucket
