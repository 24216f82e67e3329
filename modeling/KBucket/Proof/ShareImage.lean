import KBucket.Lib.Run
import KBucket.Proof.Completion
import KBucket.Proof.PhotoName
import KBucket.Proof.PostData
import KBucket.View.BucketListShare

/-!
# Sharing a bucket with its photo

A share is a message of its own; the photo follows once the server has answered. The handler of
that answer looks at nothing but the status, and the upload that it starts has the name and the
value of its header field exchanged. So no upload carries the bucket's number, and a run of shares
keeps to the protocol exactly when it starts none and each bucket without a photo is accepted.

What the server answers, and in which order tasks complete, is arbitrary. Pictures, their codec
and the parser are parameters. The protocol (`Tags`) is about what a step shows and starts, and the
condition (`Harmless`) about the answer and the photo on the form, so that the two can be compared
step by step.
-/

namespace KBucket

open Lib

/-- A task under way, and the answer to the share that it follows, if it is an upload. -/
structure UnderWay where
  task : DataTask
  cause : Option Data

structure Sharing (Image : Type) where
  screen : WriteDetailPhoto Image
  documents : Documents
  underWay : List UnderWay := []

namespace Sharing

variable {Image : Type} {hash : HashOrder} {codec : ImageCodec Image} {zone : TimeZone}
  {jsonObject : Data → Option Json}

inductive Event (Image : Type) where
  | btShare (todayDate : Rat)
  | imagePicked (photoDate : Rat) (isWritten : Bool) (chosenImage : Image)
  | btRemoveImage
  | completes (i : Nat) (completion : Completion) (todayDate : Rat)

/-- The screen before a step, with nothing started or shown in it so far. -/
def before (s : Sharing Image) : WriteDetailPhoto Image :=
  { s.screen with started := [], toasts := [] }

/-- What the handlers started is under way. -/
def follow (s : Sharing Image) (underWay : List UnderWay) (cause : Option Data)
    (screen : WriteDetailPhoto Image) : Sharing Image :=
  { s with screen, underWay := underWay ++ screen.started.map fun task => ⟨task, cause⟩ }

/-- A task completes once, in any order, and the main queue runs the calls that its closure
    makes. -/
def step (hash : HashOrder) (codec : ImageCodec Image) (zone : TimeZone) (s : Sharing Image) :
    Event Image → Except Trap (Sharing Image)
  | .btShare todayDate => do
    let screen ← s.before.btShare hash codec zone todayDate
    return s.follow s.underWay none screen
  | .imagePicked photoDate isWritten chosenImage => do
    let (screen, documents) ← s.before.imagePickerController codec zone photoDate isWritten
      s.documents chosenImage
    return { s with screen, documents }
  | .btRemoveImage => do
    let screen ← s.before.btRemoveImage
    return { s with screen }
  | .completes i completion todayDate =>
    match s.underWay[i]? with
    | some ⟨task, _⟩ => do
      let callbacks ← task.completionHandler completion.data completion.response
      let screen ← callbacks.foldlM (fun v callback =>
        v.onHttpReceive hash codec zone todayDate callback.type callback.actionId callback.data)
        s.before
      return s.follow (s.underWay.eraseIdx i) completion.data screen
    | none => return { s with screen := s.before }

/-! ## The protocol -/

def IsShare (task : DataTask) : Prop := task.request.url = ContextUtils.KBUCKET_INSERT_BUCKET_URL

def IsUpload (task : DataTask) : Prop := task.request.url = ContextUtils.KBUCKET_UPLOAD_IMAGE_URL

instance (task : DataTask) : Decidable (IsUpload task) :=
  inferInstanceAs (Decidable (task.request.url = _))

/-- The answer to the share that a completion is about: itself, or the one before the upload. -/
def answer (s : Sharing Image) : Event Image → Option Data
  | .completes i completion _ =>
    match s.underWay[i]? with
    | some ⟨task, cause⟩ => if IsUpload task then cause else completion.data
    | none => none
  | _ => none

/-- `jsonObject` is what the parser makes of a body. -/
def Accepts (jsonObject : Data → Option Json) (answer : Option Data) : Prop :=
  ∃ data, answer = some data ∧ Json.isValid (jsonObject data) = .ok true

def Assigns [Platform] (jsonObject : Data → Option Json) (answer : Option Data) (idx : Int) :
    Prop :=
  ∃ data fields, answer = some data ∧ jsonObject data = some (.obj fields) ∧
    Json.asInt (fields.lookup "idx") = .ok idx

/-- Success is shown and an upload started only after an answer that accepts the bucket, and the
    upload tells the number that this answer gave to it. -/
def Tags [Platform] (jsonObject : Data → Option Json) (s : Sharing Image) (e : Event Image)
    (o : Except Trap (Sharing Image)) : Prop :=
  ∀ t, o = .ok t →
    ("write_bucekt_success_string" ∈ t.screen.toasts → Accepts jsonObject (s.answer e)) ∧
    ∀ task ∈ t.screen.started, IsUpload task → Accepts jsonObject (s.answer e) ∧
      ∃ idx, Assigns jsonObject (s.answer e) idx ∧ task.request.value "idx" = some (toString idx)

/-- A share that the server answered is accepted and without a photo; or the photo's image is
    missing, and the screen does not get to the upload. -/
def Harmless (codec : ImageCodec Image) (jsonObject : Data → Option Json) (s : Sharing Image) :
    Event Image → Prop
  | .completes i completion _ =>
    ∀ u, s.underWay[i]? = some u → IsShare u.task → completion.response = some (.http 200) →
      if s.screen.form.mPhotoPath.length > 0 then s.screen.ivImage.bind codec.pngData = none
      else Accepts jsonObject completion.data
  | _ => True

end Sharing

/-! ## The header of an upload -/

namespace WriteDetailPhoto

theorem toLower_of_isDigit {c : Char} (h : c.isDigit = true) : c.toLower = c := by
  simp only [Char.isDigit, Bool.and_eq_true, decide_eq_true_eq] at h
  unfold Char.toLower
  rw [dif_neg]
  intro hupper
  exact absurd (UInt32.le_trans hupper.1 h.2) (by decide)

theorem lowercased_number_ne (i : Int) :
    URLRequest.lowercased (toString i) ≠ URLRequest.lowercased "idx" := by
  intro h
  have hmem : 'i' ∈ URLRequest.lowercased (toString i) := by
    rw [h]
    decide
  obtain ⟨c, hc, hlower⟩ := List.mem_map.mp hmem
  -- Neither the sign nor a digit is the letter, in either case.
  rcases mem_toString_int hc with rfl | hdigit
  · exact absurd hlower (by decide)
  · rw [toLower_of_isDigit hdigit] at hlower
    subst hlower
    exact absurd hdigit (by decide)

theorem lowercased_jpg_ne (fileName : String) :
    URLRequest.lowercased (fileName ++ ".jpg") ≠ URLRequest.lowercased "idx" := by
  intro h
  have hlength := congrArg List.length h
  simp [URLRequest.lowercased] at hlength

/-- **No upload has a header field `idx`**: that is the value of one named by the number. -/
theorem value_idx_uploadImage (photoPath fileName : String) (mImageIdx : Int) (imageData : Data) :
    (uploadImage photoPath (toString mImageIdx) fileName imageData).request.value "idx" = none := by
  have hcontent : URLRequest.lowercased "Content-Type" ≠ URLRequest.lowercased "idx" := by decide
  unfold uploadImage HttpUrlFileUploadManager.actionTask HttpUrlFileUploadManager.request
  rw [URLRequest.value_httpBody, URLRequest.value_setValue_of_ne _ _ (lowercased_jpg_ne fileName),
    URLRequest.value_setValue_of_ne _ _ (lowercased_number_ne mImageIdx),
    URLRequest.value_setValue_of_ne _ _ hcontent]
  rfl

/-! ## The handlers -/

variable {Image : Type} {hash : HashOrder} {codec : ImageCodec Image} {zone : TimeZone}
  {todayDate : Rat}

theorem btShare_eq (v : WriteDetailPhoto Image) (hash : HashOrder) (codec : ImageCodec Image)
    (zone : TimeZone) (todayDate : Rat) :
    ∃ data, v.btShare hash codec zone todayDate = .ok (v.start (uploadBucket data)) := by
  obtain ⟨data, hdata, -⟩ := StringUtils.getHTTPPostSendData_bytes (v.shareBucketImage hash)
  exact ⟨data, bind_eq_ok.mpr ⟨data, hdata, rfl⟩⟩

theorem onHttpReceive_shared {v : WriteDetailPhoto Image} (h : ¬ v.form.mPhotoPath.length > 0)
    (data : Data) :
    v.onHttpReceive hash codec zone todayDate ConstHTTP.HTTP_OK ConstHTTP.INSERT_BUCKET data =
      .ok (v.showToast "write_bucekt_success_string") := by
  rw [onHttpReceive, if_pos rfl, if_neg (by decide), if_neg h]
  rfl

theorem onHttpReceive_photo {v : WriteDetailPhoto Image} (h : v.form.mPhotoPath.length > 0)
    (data : Data) :
    v.onHttpReceive hash codec zone todayDate ConstHTTP.HTTP_OK ConstHTTP.INSERT_BUCKET data =
      (unwrap (v.ivImage.bind codec.pngData)).map fun imageData =>
        v.start (uploadImage v.form.mPhotoPath (toString v.mImageIdx) (fileName zone todayDate)
          imageData) := by
  rw [onHttpReceive, if_pos rfl, if_neg (by decide), if_pos h]
  simp only [handleMessage, if_pos h]
  cases v.ivImage with
  | none => rfl
  | some image => cases codec.pngData image <;> rfl

/-- How a share completes: with the data of a 200, or with a failure, or not at all. -/
theorem uploadBucket_completes (completion : Completion) (data : String) :
    (completion.response = some (.http 200) ∧ ∃ body, completion.data = some body ∧
      (uploadBucket data).completionHandler completion.data completion.response =
        .ok [⟨ConstHTTP.HTTP_OK, ConstHTTP.INSERT_BUCKET, body⟩]) ∨
    (completion.response ≠ some (.http 200) ∧
      ((∃ body, (uploadBucket data).completionHandler completion.data completion.response =
        .ok [⟨ConstHTTP.HTTP_FAIL, ConstHTTP.INSERT_BUCKET, body⟩]) ∨
      ∃ e, (uploadBucket data).completionHandler completion.data completion.response =
        .error e)) := by
  unfold uploadBucket
  rw [HttpUrlTaskManager.actionTaskWithData_completionHandler]
  by_cases herror : completion.error = none
  · obtain ⟨⟨type, _, body⟩, hcall, rfl, hkind⟩ :=
      (HttpUrlTaskManager.completes_iff ⟨ContextUtils.KBUCKET_INSERT_BUCKET_URL, true,
        ConstHTTP.INSERT_BUCKET⟩ completion).mpr herror
    split at hkind
    · next hok =>
      obtain ⟨rfl, hbody⟩ := hkind
      exact Or.inl ⟨hok, body, hbody, hcall⟩
    · next hnot =>
      cases hkind
      exact Or.inr ⟨hnot, Or.inl ⟨body, hcall⟩⟩
  · -- With an error there is neither data nor a response, and the handler unwraps the data.
    obtain ⟨hdata, hresponse⟩ := Completion.offline herror
    rw [hdata, hresponse]
    exact Or.inr ⟨fun h => (by cases h), Or.inr ⟨.unwrappedNil, rfl⟩⟩

end WriteDetailPhoto

namespace Sharing

variable {Image : Type} {hash : HashOrder} {codec : ImageCodec Image} {zone : TimeZone}
  {jsonObject : Data → Option Json}

/-- What the answer to a share comes to. -/
inductive Answered (codec : ImageCodec Image) (s : Sharing Image) (completion : Completion)
    (rest : List UnderWay) : Except Trap (Sharing Image) → Prop
  | failed : completion.response ≠ some (.http 200) →
      Answered codec s completion rest
        (.ok (s.follow rest completion.data (s.before.showToast "write_bucekt_fail_string")))
  | trapped (e : Trap) :
      (completion.response = some (.http 200) →
        s.screen.form.mPhotoPath.length > 0 ∧ s.screen.ivImage.bind codec.pngData = none) →
      Answered codec s completion rest (.error e)
  | shared : completion.response = some (.http 200) → ¬ s.screen.form.mPhotoPath.length > 0 →
      Answered codec s completion rest
        (.ok (s.follow rest completion.data (s.before.showToast "write_bucekt_success_string")))
  | uploads (photoPath fileName : String) (imageData : Data) :
      completion.response = some (.http 200) → s.screen.form.mPhotoPath.length > 0 →
      s.screen.ivImage.bind codec.pngData = some imageData →
      Answered codec s completion rest
        (.ok (s.follow rest completion.data (s.before.start
          (WriteDetailPhoto.uploadImage photoPath (toString s.screen.mImageIdx) fileName
            imageData))))

theorem step_answered (hash : HashOrder) (codec : ImageCodec Image) (zone : TimeZone)
    {s : Sharing Image} {i : Nat} {data : String} {cause : Option Data}
    (hi : s.underWay[i]? = some ⟨WriteDetailPhoto.uploadBucket data, cause⟩)
    (completion : Completion) (todayDate : Rat) :
    Answered codec s completion (s.underWay.eraseIdx i)
      (s.step hash codec zone (.completes i completion todayDate)) := by
  simp only [step, hi]
  rcases WriteDetailPhoto.uploadBucket_completes completion data with
    ⟨hok, body, hbody, hcall⟩ | ⟨hnot, ⟨body, hcall⟩ | ⟨e, hcall⟩⟩
  · rw [hcall]
    simp only [ok_bind, List.foldlM_cons, List.foldlM_nil]
    by_cases hphoto : s.before.form.mPhotoPath.length > 0
    · rw [WriteDetailPhoto.onHttpReceive_photo hphoto]
      cases hdata : s.before.ivImage.bind codec.pngData with
      | none => exact .trapped .unwrappedNil fun _ => ⟨hphoto, hdata⟩
      | some imageData => exact .uploads _ _ imageData hok hphoto hdata
    · rw [WriteDetailPhoto.onHttpReceive_shared hphoto]
      exact .shared hok hphoto
  · rw [hcall]
    exact .failed hnot
  · rw [hcall]
    exact .trapped e fun hok => absurd hok hnot

/-! ## The protocol -/

theorem not_isUpload_uploadBucket (data : String) :
    ¬ IsUpload (WriteDetailPhoto.uploadBucket data) := by
  show ¬ ContextUtils.KBUCKET_INSERT_BUCKET_URL = ContextUtils.KBUCKET_UPLOAD_IMAGE_URL
  decide

/-- Only shares are under way. -/
def OnlyShares (s : Sharing Image) : Prop :=
  ∀ u ∈ s.underWay, ∃ data, u.task = WriteDetailPhoto.uploadBucket data

/-- A step that shows no success and starts no upload keeps to the protocol. -/
theorem tags_of_silent [Platform] {s t : Sharing Image} {e : Event Image}
    (htoasts : "write_bucekt_success_string" ∉ t.screen.toasts)
    (hstarted : ∀ task ∈ t.screen.started, ¬ IsUpload task) :
    Tags jsonObject s e (.ok t) := by
  intro t' ht
  cases ht
  exact ⟨fun h => absurd h htoasts, fun task htask h => absurd h (hstarted task htask)⟩

/-- An upload never does. -/
theorem not_tags_of_upload [Platform] {s : Sharing Image} {e : Event Image} {rest : List UnderWay}
    {cause : Option Data} {photoPath fileName : String} {mImageIdx : Int} {imageData : Data} :
    ¬ Tags jsonObject s e (.ok (s.follow rest cause (s.before.start
      (WriteDetailPhoto.uploadImage photoPath (toString mImageIdx) fileName imageData)))) := by
  intro h
  obtain ⟨-, idx, -, hvalue⟩ := (h _ rfl).2
    (WriteDetailPhoto.uploadImage photoPath (toString mImageIdx) fileName imageData)
    (by simp [follow, WriteDetailPhoto.start]) rfl
  rw [WriteDetailPhoto.value_idx_uploadImage] at hvalue
  cases hvalue

/-- **An answer keeps to the protocol exactly when it starts no upload, and accepts the bucket where
    success is shown.** -/
theorem answered_tags_iff [Platform] {s : Sharing Image} {i : Nat} {data : String}
    {cause : Option Data} (hi : s.underWay[i]? = some ⟨WriteDetailPhoto.uploadBucket data, cause⟩)
    (completion : Completion) (todayDate : Rat) :
    Tags jsonObject s (.completes i completion todayDate)
        (s.step hash codec zone (.completes i completion todayDate)) ↔
      Harmless codec jsonObject s (.completes i completion todayDate) := by
  have hanswer : s.answer (.completes i completion todayDate) = completion.data := by
    simp only [answer, hi, if_neg (not_isUpload_uploadBucket data)]
  have hharmless : Harmless codec jsonObject s (.completes i completion todayDate) ↔
      (completion.response = some (.http 200) →
        if s.screen.form.mPhotoPath.length > 0 then s.screen.ivImage.bind codec.pngData = none
        else Accepts jsonObject completion.data) := by
    constructor
    · intro h
      exact h _ hi rfl
    · intro h u hu _
      rw [hi] at hu
      cases hu
      exact h
  rw [hharmless]
  generalize ho : s.step hash codec zone (.completes i completion todayDate) = o
  have hanswered := step_answered hash codec zone hi completion todayDate
  rw [ho] at hanswered
  cases hanswered with
  | failed hnot =>
    -- Only the toast of a failure.
    refine iff_of_true (tags_of_silent ?_ ?_) (fun hok => absurd hok hnot)
    · simp [follow, before, WriteDetailPhoto.showToast]
    · simp [follow, before, WriteDetailPhoto.showToast]
  | trapped e hmissing =>
    refine iff_of_true (fun t ht => by cases ht) (fun hok => ?_)
    obtain ⟨hphoto, hnone⟩ := hmissing hok
    rw [if_pos hphoto]
    exact hnone
  | shared hok hphoto =>
    -- The toast of success is shown whatever the answer says.
    rw [if_neg hphoto]
    constructor
    · intro h _
      rw [← hanswer]
      exact (h _ rfl).1 (by simp [follow, WriteDetailPhoto.showToast])
    · intro h t ht
      cases ht
      refine ⟨fun _ => hanswer ▸ h hok, fun task htask => ?_⟩
      simp [follow, before, WriteDetailPhoto.showToast] at htask
  | uploads photoPath fileName imageData hok hphoto hdata =>
    rw [if_pos hphoto, hdata]
    exact iff_of_false not_tags_of_upload (fun h => by cases h hok)

theorem tags_iff [Platform] {s : Sharing Image} (hs : s.OnlyShares) (e : Event Image) :
    Tags jsonObject s e (s.step hash codec zone e) ↔ Harmless codec jsonObject s e := by
  cases e with
  | btShare todayDate =>
    -- A share is no upload, and shows nothing before it is answered.
    obtain ⟨data, hshare⟩ := s.before.btShare_eq hash codec zone todayDate
    simp only [step, hshare, ok_bind]
    refine iff_of_true (tags_of_silent ?_ ?_) trivial
    · simp [follow, before, WriteDetailPhoto.start]
    · simp [follow, before, WriteDetailPhoto.start, not_isUpload_uploadBucket]
  | imagePicked photoDate isWritten chosenImage =>
    refine iff_of_true ?_ trivial
    simp only [step]
    cases hdata : codec.jpegData chosenImage with
    | none =>
      rw [s.before.imagePickerController_of_none hdata]
      intro t ht
      cases ht
    | some imageData =>
      rw [s.before.imagePickerController_of_some hdata]
      exact tags_of_silent (by simp [before]) (by simp [before])
  | btRemoveImage =>
    exact iff_of_true (tags_of_silent (by simp [before]) (by simp [before])) trivial
  | completes i completion todayDate =>
    cases hi : s.underWay[i]? with
    | none =>
      -- Nothing of that number is under way, so nothing is answered.
      refine iff_of_true ?_ (fun u hu => by rw [hi] at hu; cases hu)
      simp only [step, hi]
      exact tags_of_silent (by simp [before]) (by simp [before])
    | some u =>
      obtain ⟨task, cause⟩ := u
      obtain ⟨data, rfl⟩ := hs ⟨task, cause⟩ (List.mem_of_getElem? hi)
      exact answered_tags_iff hi completion todayDate

theorem onlyShares_follow {s : Sharing Image} {rest : List UnderWay} {cause : Option Data}
    {screen : WriteDetailPhoto Image}
    (hrest : ∀ u ∈ rest, ∃ data, u.task = WriteDetailPhoto.uploadBucket data)
    (hstarted : ∀ task ∈ screen.started, ∃ data, task = WriteDetailPhoto.uploadBucket data) :
    (s.follow rest cause screen).OnlyShares := by
  intro u hu
  rcases List.mem_append.mp hu with hold | hnew
  · exact hrest u hold
  · obtain ⟨task, htask, rfl⟩ := List.mem_map.mp hnew
    exact hstarted task htask

/-- A step that keeps to the protocol starts nothing but shares. -/
theorem onlyShares_step [Platform] {s t : Sharing Image} (hs : s.OnlyShares) {e : Event Image}
    (htags : Tags jsonObject s e (s.step hash codec zone e))
    (ht : s.step hash codec zone e = .ok t) : t.OnlyShares := by
  cases e with
  | btShare todayDate =>
    obtain ⟨data, hshare⟩ := s.before.btShare_eq hash codec zone todayDate
    simp only [step, hshare, ok_bind] at ht
    cases ht
    exact onlyShares_follow hs (by simp [before, WriteDetailPhoto.start])
  | imagePicked photoDate isWritten chosenImage =>
    obtain ⟨⟨screen, documents⟩, -, hnext⟩ := bind_eq_ok.mp ht
    cases hnext
    exact hs
  | btRemoveImage =>
    cases ht
    exact hs
  | completes i completion todayDate =>
    cases hi : s.underWay[i]? with
    | none =>
      simp only [step, hi] at ht
      cases ht
      exact hs
    | some u =>
      obtain ⟨task, cause⟩ := u
      obtain ⟨data, rfl⟩ := hs ⟨task, cause⟩ (List.mem_of_getElem? hi)
      have hrest : ∀ u ∈ s.underWay.eraseIdx i, ∃ data,
          u.task = WriteDetailPhoto.uploadBucket data :=
        fun u hu => hs u (List.mem_of_mem_eraseIdx hu)
      -- An answer starts an upload or nothing, and an upload breaks the protocol.
      have hanswered := step_answered hash codec zone hi completion todayDate
      rw [ht] at hanswered htags
      cases hanswered with
      | failed _ => exact onlyShares_follow hrest (by simp [before, WriteDetailPhoto.showToast])
      | shared _ _ => exact onlyShares_follow hrest (by simp [before, WriteDetailPhoto.showToast])
      | uploads _ _ _ _ _ _ => exact absurd htags not_tags_of_upload

/-- **A run of shares tags the right buckets exactly when each share that the server answers is
    accepted and has no photo**, or a photo that is not there.

    The condition speaks of answers and of the photo on the form. Nothing is asked of the order in
    which tasks complete, of the pictures, or of the parser. -/
theorem shares_tagged_iff [Platform] (hash : HashOrder) (codec : ImageCodec Image) (zone : TimeZone)
    (jsonObject : Data → Option Json) (screen : WriteDetailPhoto Image) (documents : Documents)
    (events : List (Event Image)) :
    EachStep (step hash codec zone) (Tags jsonObject) { screen, documents } events ↔
      Guarded (step hash codec zone) (Harmless codec jsonObject) { screen, documents } events := by
  apply EachStep.congr (I := OnlyShares)
  · intro s e t hs htags ht
    exact onlyShares_step hs htags ht
  · intro s e hs
    exact tags_iff hs e
  · intro u hu
    cases hu

/-! ## Two runs that tag wrongly -/

/-- One share, and its answer. -/
theorem first_share_tagged_iff [Platform] (hash : HashOrder) (codec : ImageCodec Image)
    (zone : TimeZone)
    (jsonObject : Data → Option Json) (screen : WriteDetailPhoto Image) (documents : Documents)
    (completion : Completion) :
    EachStep (step hash codec zone) (Tags jsonObject) { screen, documents }
        [.btShare 0, .completes 0 completion 0] ↔
      (completion.response = some (.http 200) →
        if screen.form.mPhotoPath.length > 0 then screen.ivImage.bind codec.pngData = none
        else Accepts jsonObject completion.data) := by
  have hshares : ({ screen, documents } : Sharing Image).OnlyShares := fun u hu => by cases hu
  obtain ⟨data, hshare⟩ :=
    ({ screen, documents } : Sharing Image).before.btShare_eq hash codec zone 0
  have hstep : step hash codec zone { screen, documents } (.btShare 0) = .ok {
      screen := { screen with started := [WriteDetailPhoto.uploadBucket data], toasts := [] }
      documents
      underWay := [⟨WriteDetailPhoto.uploadBucket data, none⟩] } := by
    simp only [step, hshare]
    rfl
  constructor
  · intro h
    have hharmless := (answered_tags_iff rfl completion 0).mp (h.2 _ hstep).1
    exact hharmless _ rfl rfl
  · intro h
    refine ⟨(tags_iff hshares (.btShare 0)).mpr trivial, fun t ht => ?_⟩
    rw [hstep] at ht
    cases ht
    refine ⟨(answered_tags_iff rfl completion 0).mpr fun u hu _ => ?_, fun t ht => trivial⟩
    cases hu
    exact h

def photoScreen : WriteDetailPhoto Data where
  form := { emptyScreen.form with mPhotoPath := "20240505_010000" }
  ivImage := some [1]

/-- An answer of status 200. -/
def received (data : Data) : Completion where
  data := some data
  response := some (.http 200)
  error := none
  delivered := Or.inr ⟨rfl, rfl, 200, rfl⟩

/-- A bucket that the server refuses is reported as shared, and the photo of the one that it numbers
    seven goes up without the number. -/
theorem refused_and_photo_untagged :
    ¬ EachStep (step .asWritten plainCodec (.fixed 0))
        (Tags fun _ => some (.obj [("isValid", .bool false)]))
        { screen := emptyScreen, documents := fun _ => none }
        [.btShare 0, .completes 0 (received []) 0] ∧
      ¬ EachStep (step .asWritten plainCodec (.fixed 0))
        (Tags fun _ => some (.obj [("isValid", .bool true), ("idx", .int 7)]))
        { screen := photoScreen, documents := fun _ => none }
        [.btShare 0, .completes 0 (received []) 0] := by
  constructor
  · intro h
    obtain ⟨data, -, hvalid⟩ := (first_share_tagged_iff ..).mp h rfl
    cases hvalid
  · intro h
    cases (first_share_tagged_iff ..).mp h rfl

end Sharing

namespace BucketListShare

variable {v v' : BucketListShare} {fields : List (String × Json)}

/-- The sibling goes on only with an answer that accepts the bucket, and keeps the number. -/
theorem onHttpReceive_sends [Platform] {data : Option Json}
    (h : v.onHttpReceive ConstHTTP.HTTP_OK ConstHTTP.INSERT_BUCKET data = .ok v')
    (hsent : v'.messages ≠ v.messages) :
    ∃ fields, data = some (.obj fields) ∧ Json.asBool (fields.lookup "isValid") = .ok true ∧
      Json.asInt (fields.lookup "idx") = .ok v'.mImageIdx := by
  change v.onAnswer data = .ok v' at h
  unfold onAnswer at h
  split at h
  · next fields =>
    obtain ⟨isValid, hvalid, h⟩ := bind_eq_ok.mp h
    obtain ⟨mImageIdx, hidx, h⟩ := bind_eq_ok.mp h
    refine ⟨fields, rfl, ?_⟩
    cases isValid with
    | false =>
      cases h
      exact absurd rfl hsent
    | true =>
      -- With a photo and without one, it is kept alike.
      obtain ⟨postData, -, h⟩ := bind_eq_ok.mp h
      split at h
      · cases h
        exact ⟨hvalid, hidx⟩
      · cases h
        exact ⟨hvalid, hidx⟩
  · cases h
    exact absurd rfl hsent

end BucketListShare
end KBucket
