import KBucket.Managers.HttpUrlFileUploadManager

/-!
# How a request completes

The closures of the task manager unwrap the data of a failure, which a transport error does not
have; the closure of the upload manager returns without a call when there is no response. So a
request completes when there was an answer, and otherwise ends the process or is never heard of.

What a completion is follows `URLSession`: it has data and a response, or an error alone. The task
manager writes its closure down three times, for a GET and for a request with data by either
method, and each is modelled as it stands. Of what the receiver does with a call nothing is said.
-/

namespace KBucket

variable {completion : Completion}

/-- Exactly one call, of the manager's own action: with the data of a 200, or a failure. -/
def Completes (id : Int) (completion : Completion) (outcome : Except Trap (List Callback)) : Prop :=
  ∃ callback, outcome = .ok [callback] ∧ callback.actionId = id ∧
    if completion.response = some (.http 200) then
      callback.type = ConstHTTP.HTTP_OK ∧ completion.data = some callback.data
    else callback.type = ConstHTTP.HTTP_FAIL

namespace Completion

theorem isOk_iff (response : Option URLResponse) :
    isOk response = true ↔ response = some (.http 200) := by
  unfold isOk
  split
  · simp
  · next hnot =>
    constructor
    · intro h; cases h
    · intro h; exact absurd h (hnot 200)

/-- Without a transport error there is a response, and data. -/
theorem answered (herror : completion.error = none) :
    ∃ data statusCode, completion.data = some data ∧
      completion.response = some (.http statusCode) := by
  rcases completion.delivered with ⟨hsome, -, -⟩ | ⟨-, hdata, statusCode, hresponse⟩
  · rw [herror] at hsome
    cases hsome
  · obtain ⟨data, hdata⟩ := Option.isSome_iff_exists.mp hdata
    exact ⟨data, statusCode, hdata, hresponse⟩

/-- After a transport error there is neither. -/
theorem offline (herror : completion.error ≠ none) :
    completion.data = none ∧ completion.response = none := by
  rcases completion.delivered with ⟨-, hdata, hresponse⟩ | ⟨hnone, -, -⟩
  · exact ⟨hdata, hresponse⟩
  · exact absurd hnone herror

end Completion

namespace HttpUrlTaskManager

theorem completes_iff (manager : HttpUrlTaskManager) (completion : Completion) :
    Completes manager.mId completion
      (manager.completionHandler completion.data completion.response) ↔
      completion.error = none := by
  constructor
  · intro h
    -- Without data the closure traps.
    by_contra herror
    obtain ⟨hdata, hresponse⟩ := Completion.offline herror
    obtain ⟨callback, hcallback, -⟩ := h
    rw [hdata, hresponse] at hcallback
    cases hcallback
  · intro herror
    obtain ⟨data, statusCode, hdata, hresponse⟩ := Completion.answered herror
    unfold Completes completionHandler
    rw [hdata]
    by_cases hok : completion.response = some (.http 200)
    · refine ⟨⟨ConstHTTP.HTTP_OK, manager.mId, data⟩, ?_, rfl, ?_⟩
      · rw [(Completion.isOk_iff _).mpr hok]
        rfl
      · rw [if_pos hok]
        exact ⟨rfl, rfl⟩
    · refine ⟨⟨ConstHTTP.HTTP_FAIL, manager.mId, data⟩, ?_, rfl, ?_⟩
      · rw [Bool.eq_false_iff.mpr (mt (Completion.isOk_iff _).mp hok)]
        rfl
      · rw [if_neg hok]

theorem actionTaskWithData_completionHandler (manager : HttpUrlTaskManager) (data : String) :
    (manager.actionTaskWithData data).completionHandler = manager.completionHandler := by
  unfold actionTaskWithData
  split <;> rfl

end HttpUrlTaskManager

namespace HttpUrlFileUploadManager

theorem completes_iff (manager : HttpUrlFileUploadManager) (completion : Completion) :
    Completes manager.mId completion
      (manager.completionHandler completion.data completion.response) ↔
      completion.error = none := by
  constructor
  · intro h
    -- Without a response the closure calls nobody.
    by_contra herror
    obtain ⟨hdata, hresponse⟩ := Completion.offline herror
    obtain ⟨callback, hcallback, -⟩ := h
    rw [hdata, hresponse] at hcallback
    cases hcallback
  · intro herror
    -- There is a response, so the rest of the closure is the task manager's.
    obtain ⟨data, statusCode, hdata, hresponse⟩ := Completion.answered herror
    have hsame : manager.completionHandler completion.data completion.response =
        HttpUrlTaskManager.completionHandler ⟨manager.mURl, manager.isPost, manager.mId⟩
          completion.data completion.response := by
      rw [completionHandler, hresponse, if_neg (Option.some_ne_none _)]
      rfl
    rw [hsame]
    exact (HttpUrlTaskManager.completes_iff ⟨manager.mURl, manager.isPost, manager.mId⟩
      completion).mpr herror

end HttpUrlFileUploadManager

/-- **A request completes with one call exactly when there was no transport error**: the GET of a
    task manager, its request with data (by POST or by GET), and the upload.

    A completion is what `URLSession` delivers: data with a response, or an error alone. -/
theorem requests_complete_iff (completion : Completion) :
    (∀ manager : HttpUrlTaskManager,
      Completes manager.mId completion
        (manager.actionTask.completionHandler completion.data completion.response) ↔
      completion.error = none) ∧
    (∀ (manager : HttpUrlTaskManager) (data : String),
      Completes manager.mId completion
        ((manager.actionTaskWithData data).completionHandler completion.data completion.response) ↔
      completion.error = none) ∧
    ∀ (manager : HttpUrlFileUploadManager) (filePath setValue reqValue fileName : String)
      (image : Data),
      Completes manager.mId completion
        ((manager.actionTask filePath setValue reqValue fileName image).completionHandler
          completion.data completion.response) ↔
      completion.error = none := by
  refine ⟨?_, ?_, ?_⟩
  · intro manager
    exact manager.completes_iff completion
  · intro manager data
    rw [manager.actionTaskWithData_completionHandler data]
    exact manager.completes_iff completion
  · intro manager filePath setValue reqValue fileName image
    exact manager.completes_iff completion

/-- The device is offline. -/
def notConnected : Completion where
  data := none
  response := none
  error := some "The Internet connection appears to be offline."
  delivered := Or.inl ⟨rfl, rfl, rfl⟩

/-- The task manager ends the process, the upload manager says nothing. -/
theorem offline_not_completed :
    (HttpUrlTaskManager.actionTask ⟨"", false, ConstHTTP.NOTICE_LIST⟩).completionHandler
      notConnected.data notConnected.response = .error .unwrappedNil ∧
    (HttpUrlFileUploadManager.actionTask ⟨"", true, ConstHTTP.INSERT_IMAGE⟩ "" "" "" ""
      []).completionHandler notConnected.data notConnected.response = .ok [] := by
  exact ⟨rfl, rfl⟩

end KBucket
